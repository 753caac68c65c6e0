import LibRtlSdr.RtlSdrResources

namespace LibRtlSdr.RtlSdr

open PartialRun
open ResourceLedger

/-!
# The buffers of `rtlsdr_read_async`

The function uses and frees the memory that the allocations before it left, also when
these have failed.  It gives back what it acquired, and touches nothing else, exactly
when the two arrays and the transfers it comes to are there, and no buffer in userspace
is refused in front of a freed zero-copy buffer.
-/

namespace StreamAnswers

variable {answers : StreamAnswers} {build : BuildOptions}

/-! ## The loops -/

/-- The zero-copy buffer `j` is allocated: all before it were zeroed. -/
def Obtains (answers : StreamAnswers) (j : Nat) : Prop :=
  j < answers.xferBufNum ∧ (∀ i, i < j → answers.devMem i = .zeroed) ∧
    answers.devMem j ≠ .refused

/-- Zero-copy buffers are asked for and not all of them are there. -/
def FallsBack (answers : StreamAnswers) (build : BuildOptions) : Prop :=
  build.enableZerocopy = true ∧ ∃ i, i < answers.xferBufNum ∧ answers.devMem i ≠ .zeroed

theorem zeroCopyLoop_le
    (answers : StreamAnswers)
    (i left : Nat) :
    i ≤ (answers.zeroCopyLoop i left).count ∧
      (answers.zeroCopyLoop i left).count ≤ i + left := by
  induction left generalizing i with
  | zero =>
      exact ⟨Nat.le_refl i, Nat.le_refl i⟩
  | succ left inductionHypothesis =>
      have later := inductionHypothesis (i + 1)
      rw [zeroCopyLoop]
      dsimp only
      split <;> dsimp only <;> omega

/-- The loop has got all buffers exactly when all were zeroed. -/
theorem zeroCopyLoop_whole_iff
    (answers : StreamAnswers)
    (i left : Nat) :
    (answers.zeroCopyLoop i left).whole = true ↔
      ∀ j, i ≤ j → j < i + left → answers.devMem j = .zeroed := by
  induction left generalizing i with
  | zero =>
      exact iff_of_true rfl (fun j from' below => absurd below (by omega))
  | succ left inductionHypothesis =>
      rw [zeroCopyLoop]
      dsimp only
      split
      · rename_i refused
        refine iff_of_false Bool.false_ne_true (fun all => ?_)
        rw [all i (Nat.le_refl i) (by omega)] at refused
        cases refused
      · rename_i garbage
        refine iff_of_false Bool.false_ne_true (fun all => ?_)
        rw [all i (Nat.le_refl i) (by omega)] at garbage
        cases garbage
      · rename_i zeroed
        dsimp only
        rw [inductionHypothesis]
        constructor
        · intro all j atLeast below
          rcases Nat.eq_or_lt_of_le atLeast with rfl | later
          · exact zeroed
          · exact all j later (by omega)
        · exact fun all j later below => all j (by omega) (by omega)

/-- Which buffers the loop has got. -/
theorem lt_zeroCopyLoop_iff
    (answers : StreamAnswers)
    (i left : Nat)
    {j : Nat}
    (atLeast : i ≤ j) :
    j < (answers.zeroCopyLoop i left).count ↔
      j < i + left ∧ (∀ k, i ≤ k → k < j → answers.devMem k = .zeroed) ∧
        answers.devMem j ≠ .refused := by
  induction left generalizing i with
  | zero =>
      have none : ¬ j < (answers.zeroCopyLoop i 0).count := Nat.not_lt.mpr atLeast
      exact iff_of_false none (fun got => absurd got.1 (by omega))
  | succ left inductionHypothesis =>
      rw [zeroCopyLoop]
      dsimp only
      split
      · rename_i refused
        refine iff_of_false (Nat.not_lt.mpr atLeast) ?_
        rintro ⟨_, before, notRefused⟩
        rcases Nat.eq_or_lt_of_le atLeast with rfl | later
        · exact notRefused refused
        · rw [before i (Nat.le_refl i) later] at refused
          cases refused
      · rename_i garbage
        dsimp only
        constructor
        · intro first
          obtain rfl : i = j := by omega
          refine ⟨by omega, fun k _ below => absurd below (by omega), ?_⟩
          rw [garbage]
          decide
        · rintro ⟨_, before, _⟩
          by_contra behind
          rw [before i (Nat.le_refl i) (by omega)] at garbage
          cases garbage
      · rename_i zeroed
        dsimp only
        rcases Nat.eq_or_lt_of_le atLeast with rfl | later
        · have first := (zeroCopyLoop_le answers (i + 1) left).1
          refine iff_of_true (by omega)
            ⟨by omega, fun k _ below => absurd below (by omega), ?_⟩
          rw [zeroed]
          decide
        · rw [inductionHypothesis (i + 1) later]
          constructor
          · rintro ⟨below, before, notRefused⟩
            refine ⟨by omega, fun k from' upTo => ?_, notRefused⟩
            rcases Nat.eq_or_lt_of_le from' with rfl | behind
            · exact zeroed
            · exact before k behind upTo
          · rintro ⟨below, before, notRefused⟩
            exact ⟨by omega, fun k from' upTo => before k (by omega) upTo, notRefused⟩

theorem userspaceLoop_le
    (answers : StreamAnswers)
    (i left : Nat) :
    i ≤ (answers.userspaceLoop i left).count ∧
      (answers.userspaceLoop i left).count ≤ i + left := by
  induction left generalizing i with
  | zero =>
      exact ⟨Nat.le_refl i, Nat.le_refl i⟩
  | succ left inductionHypothesis =>
      have later := inductionHypothesis (i + 1)
      rw [userspaceLoop]
      split_ifs <;> dsimp only <;> omega

/-- The buffer behind the last one of the loop was refused, or there is none. -/
theorem userspaceLoop_count
    (answers : StreamAnswers)
    (i left : Nat) :
    (∀ j, i ≤ j → j < (answers.userspaceLoop i left).count →
        answers.userspace j = true) ∧
      ((answers.userspaceLoop i left).count < i + left →
        answers.userspace (answers.userspaceLoop i left).count = false) := by
  induction left generalizing i with
  | zero =>
      constructor
      · intro j atLeast below
        have same : (answers.userspaceLoop i 0).count = i := rfl
        omega
      · intro below
        have same : (answers.userspaceLoop i 0).count = i := rfl
        omega
  | succ left inductionHypothesis =>
      have later := inductionHypothesis (i + 1)
      rw [userspaceLoop]
      split_ifs with got
      · dsimp only
        constructor
        · intro j atLeast below
          rcases Nat.eq_or_lt_of_le atLeast with rfl | behind
          · exact got
          · exact later.1 j behind below
        · intro below
          exact later.2 (by omega)
      · dsimp only
        refine ⟨fun j atLeast below => absurd below (by omega), fun _ => ?_⟩
        simpa using got

/-! ## The accesses of the loops -/

/-- A zero-copy buffer is acquired and used by its own pass. -/
theorem history_zeroCopyLoop
    (answers : StreamAnswers)
    (i left j : Nat) :
    history (.buffer (.zeroCopy j)) (answers.zeroCopyLoop i left).accesses =
      if i ≤ j ∧ j < (answers.zeroCopyLoop i left).count then
        [.acquire (.buffer (.zeroCopy j)), .use (some (.buffer (.zeroCopy j)))]
      else
        [] := by
  induction left generalizing i with
  | zero =>
      have none : ¬ (i ≤ j ∧ j < (answers.zeroCopyLoop i 0).count) := by
        have same : (answers.zeroCopyLoop i 0).count = i := rfl
        omega
      rw [if_neg none]
      rfl
  | succ left inductionHypothesis =>
      have later := inductionHypothesis (i + 1)
      have behind := (zeroCopyLoop_le answers (i + 1) left).1
      have pass :
          history (Held.buffer (.zeroCopy j))
              [.acquire (.buffer (.zeroCopy i)), .use (some (.buffer (.zeroCopy i)))] =
            if i = j then
              [.acquire (.buffer (.zeroCopy j)), .use (some (.buffer (.zeroCopy j)))]
            else
              [] := by
        by_cases same : i = j
        · subst same
          simp [history, concerns]
        · simp [history, concerns, same]
      rw [zeroCopyLoop]
      dsimp only
      split
      · rw [if_neg (by dsimp only; omega)]
        rfl
      · dsimp only
        rw [pass]
        congr 1
        exact propext (by omega)
      · dsimp only
        rw [history_append, pass, later]
        by_cases same : i = j
        · rw [if_pos same, if_neg (by omega), if_pos (by omega), List.append_nil]
        · rw [if_neg same, List.nil_append]
          congr 1
          exact propext (by omega)

/-- The loop concerns no other resource. -/
theorem history_zeroCopyLoop_other
    (answers : StreamAnswers)
    (i left : Nat)
    {resource : Held}
    (other : ∀ j, resource ≠ .buffer (.zeroCopy j)) :
    history resource (answers.zeroCopyLoop i left).accesses = [] := by
  induction left generalizing i with
  | zero =>
      rfl
  | succ left inductionHypothesis =>
      have later := inductionHypothesis (i + 1)
      have pass :
          history resource
              [.acquire (.buffer (.zeroCopy i)), .use (some (.buffer (.zeroCopy i)))] =
            [] := by
        simp [history, concerns, Ne.symm (other i)]
      rw [zeroCopyLoop]
      dsimp only
      split
      · rfl
      · exact pass
      · dsimp only
        rw [history_append, pass, later]
        rfl

/-- A buffer in userspace is acquired by its own pass. -/
theorem history_userspaceLoop
    (answers : StreamAnswers)
    (i left j : Nat) :
    history (.buffer (.userspace j)) (answers.userspaceLoop i left).accesses =
      if i ≤ j ∧ j < (answers.userspaceLoop i left).count then
        [.acquire (.buffer (.userspace j))]
      else
        [] := by
  induction left generalizing i with
  | zero =>
      have none : ¬ (i ≤ j ∧ j < (answers.userspaceLoop i 0).count) := by
        have same : (answers.userspaceLoop i 0).count = i := rfl
        omega
      rw [if_neg none]
      rfl
  | succ left inductionHypothesis =>
      have later := inductionHypothesis (i + 1)
      have behind := (userspaceLoop_le answers (i + 1) left).1
      rw [userspaceLoop]
      by_cases got : answers.userspace i = true
      · rw [if_pos got]
        dsimp only
        rw [history_cons, later]
        by_cases same : i = j
        · subst same
          rw [if_pos (by simp [concerns]), if_neg (by omega), if_pos (by omega)]
        · rw [if_neg (by simp [concerns, same])]
          congr 1
          exact propext (by omega)
      · rw [if_neg got]
        dsimp only
        rw [if_neg (by omega)]
        rfl

theorem history_userspaceLoop_other
    (answers : StreamAnswers)
    (i left : Nat)
    {resource : Held}
    (other : ∀ j, resource ≠ .buffer (.userspace j)) :
    history resource (answers.userspaceLoop i left).accesses = [] := by
  induction left generalizing i with
  | zero =>
      rfl
  | succ left inductionHypothesis =>
      have later := inductionHypothesis (i + 1)
      rw [userspaceLoop]
      split_ifs
      · dsimp only
        rw [history_cons, later, if_neg (by simp [concerns, Ne.symm (other i)])]
      · rfl

/-! ## When a stream is sound -/

/--
The arrays are there, and so is each transfer that is submitted.  If zero-copy buffers
are freed again, none was obtained behind a buffer that `malloc` refuses: its pointer
would stay in the array.
-/
structure Sound (answers : StreamAnswers) (build : BuildOptions) : Prop where
  xfer : answers.transferArray = true
  xferBuf : answers.bufferArray = true
  transfers :
    ∀ i, i < answers.xferBufNum → (∀ j, j < i → ¬ answers.submit j < 0) →
      answers.transfer i = true
  buffers :
    answers.FallsBack build →
      ∀ k j, k < j → answers.Obtains j → answers.userspace k = true

theorem zeroCopied_whole_iff :
    (answers.zeroCopied build).whole = true ↔
      build.enableZerocopy = true ∧ ¬ answers.FallsBack build := by
  have all := zeroCopyLoop_whole_iff answers 0 answers.xferBufNum
  unfold zeroCopied FallsBack
  by_cases enabled : build.enableZerocopy = true
  · rw [if_pos enabled]
    have zeroed :
        (answers.zeroCopyLoop 0 answers.xferBufNum).whole = true ↔
          ¬ ∃ i, i < answers.xferBufNum ∧ answers.devMem i ≠ .zeroed := by
      rw [all]
      constructor
      · rintro isZeroed ⟨i, below, differs⟩
        exact differs (isZeroed i (Nat.zero_le i) (by omega))
      · intro none j _ below
        by_contra differs
        exact none ⟨j, by omega, differs⟩
    by_cases whole : (answers.zeroCopyLoop 0 answers.xferBufNum).whole = true
    · simp [enabled, whole, zeroed.mp whole]
    · simp only [whole, Bool.false_eq_true, if_false, false_iff]
      simp only [enabled, true_and, not_not]
      exact not_not.mp (whole ∘ zeroed.mpr)
  · rw [if_neg enabled]
    simp [enabled]

theorem lt_zeroCopied_iff
    (enabled : build.enableZerocopy = true)
    (j : Nat) :
    j < (answers.zeroCopied build).count ↔ answers.Obtains j := by
  have got := lt_zeroCopyLoop_iff answers 0 answers.xferBufNum (Nat.zero_le j)
  have count :
      (answers.zeroCopied build).count =
        (answers.zeroCopyLoop 0 answers.xferBufNum).count := by
    unfold zeroCopied
    rw [if_pos enabled]
    dsimp only
    split_ifs <;> rfl
  rw [count, got, Obtains]
  simp

theorem zeroCopied_count_le :
    (answers.zeroCopied build).count ≤ answers.xferBufNum := by
  have bound := (zeroCopyLoop_le answers 0 answers.xferBufNum).2
  rw [Nat.zero_add] at bound
  unfold zeroCopied
  dsimp only
  split_ifs
  · exact bound
  · exact bound
  · exact Nat.zero_le answers.xferBufNum

theorem zeroCopied_disabled
    (disabled : ¬ build.enableZerocopy = true) :
    answers.zeroCopied build = ⟨0, false, []⟩ := by
  unfold zeroCopied
  rw [if_neg disabled]

theorem zeroCopied_count_of_whole
    (whole : (answers.zeroCopied build).whole = true) :
    (answers.zeroCopied build).count = answers.xferBufNum := by
  have enabled := (zeroCopied_whole_iff.mp whole).1
  have notBack := (zeroCopied_whole_iff.mp whole).2
  apply Nat.le_antisymm zeroCopied_count_le
  by_contra fewer
  have notOwn := Nat.lt_irrefl (answers.zeroCopied build).count
  rw [lt_zeroCopied_iff enabled] at notOwn
  apply notOwn
  have zeroed : ∀ i, i < answers.xferBufNum → answers.devMem i = .zeroed := by
    intro i below
    by_contra differs
    exact notBack ⟨enabled, i, below, differs⟩
  refine ⟨by omega, fun i below => zeroed i (by omega), ?_⟩
  rw [zeroed _ (by omega)]
  decide

/-- The pointers of a sound stream are those of its buffers. -/
theorem Sound.xferBufAt
    (sound : answers.Sound build)
    (fallen : ¬ (answers.zeroCopied build).whole = true)
    (i : Nat) :
    answers.xferBufAt build i =
      if i < (answers.userspaced build).count then some (.userspace i) else none := by
  unfold StreamAnswers.xferBufAt
  dsimp only
  rw [if_neg fallen]
  split_ifs with inUserspace own stale
  · rfl
  · rfl
  · -- the buffer in userspace that was refused lies in front of this one
    have enabled : build.enableZerocopy = true := by
      by_contra disabled
      rw [zeroCopied_disabled disabled] at stale
      exact Nat.not_lt_zero i stale
    have back : answers.FallsBack build := by
      by_contra notBack
      exact fallen (zeroCopied_whole_iff.mpr ⟨enabled, notBack⟩)
    have count :
        (answers.userspaced build).count =
          (answers.userspaceLoop 0 answers.xferBufNum).count := by
      unfold userspaced
      rw [if_neg fallen]
    rw [count] at inUserspace own
    have below := Nat.lt_of_lt_of_le stale zeroCopied_count_le
    have refused := (userspaceLoop_count answers 0 answers.xferBufNum).2 (by omega)
    have granted :=
      sound.buffers back (answers.userspaceLoop 0 answers.xferBufNum).count i (by omega)
        ((lt_zeroCopied_iff enabled i).mp stale)
    rw [refused] at granted
    cases granted
  · rfl

/-! ## What is held between the parts of a sound stream -/

/-- What the stream itself acquires. -/
def Streaming : Held → Prop
  | .transferArray | .bufferArray | .transfer _ | .buffer _ => True
  | _ => False

section Parts

variable (answers build) (held : Held → Bool)

/-- Behind the allocation of the transfers and of both arrays. -/
def afterTransfers : Held → Bool
  | .transferArray => true
  | .bufferArray => true
  | .transfer i => decide (i < answers.xferBufNum) && answers.transfer i
  | resource => held resource

/-- Behind the zero-copy buffers. -/
def afterZeroCopied : Held → Bool
  | .buffer (.zeroCopy j) =>
      (answers.zeroCopied build).whole && decide (j < answers.xferBufNum)
  | resource => answers.afterTransfers held resource

/-- Behind the buffers in userspace. -/
def afterUserspaced : Held → Bool
  | .buffer (.userspace j) =>
      !(answers.zeroCopied build).whole && decide (j < (answers.userspaced build).count)
  | resource => answers.afterZeroCopied build held resource

/-- Behind the freeing of the transfers and their array. -/
def afterFreeTransfers : Held → Bool
  | .transferArray => false
  | .transfer _ => false
  | resource => answers.afterUserspaced build held resource

end Parts

section Sound

variable {held : Held → Bool} (sound : answers.Sound build)

/-- The allocation of one transfer, seen from a resource. -/
theorem history_allocPass
    (answers : StreamAnswers)
    (i : Nat)
    (resource : Held) :
    history resource
        ((answers.xferAt i).toList.map .acquire ++ [.use (some .transferArray)]) =
      (if resource = .transfer i ∧ answers.transfer i = true then
          [.acquire (.transfer i)]
        else
          []) ++
        if resource = .transferArray then [.use (some .transferArray)] else [] := by
  rw [history_append, history_use]
  unfold xferAt
  by_cases allocated : answers.transfer i = true
  · by_cases own : resource = .transfer i
    · simp [allocated, own]
    · simp [allocated, own, eq_comm]
  · simp [allocated, eq_comm]

include sound in
theorem run_allocTransfers
    (idle : ∀ resource, Streaming resource → held resource = false) :
    run step held answers.allocTransfers = some (answers.afterTransfers held) := by
  have xfer : answers.xfer = some .transferArray := if_pos sound.xfer
  have xferBuf : answers.xferBuf = some .bufferArray := if_pos sound.xferBuf
  rw [run_eq_some_iff]
  intro resource
  unfold allocTransfers
  rw [xfer, xferBuf]
  simp only [history_append, Option.toList_some, List.map_cons, List.map_nil,
    history_acquire, history_use]
  cases resource with
  | transferArray =>
      have uses :=
        @history_uses Held _ Nat .transferArray
          (fun i => (answers.xferAt i).toList.map .acquire ++ [.use (some .transferArray)])
          (List.range answers.xferBufNum)
          (by
            intro i _ access member
            rw [history_allocPass] at member
            simp at member
            exact ⟨_, member⟩)
      simp [idle .transferArray trivial, run_cons, uses, afterTransfers]
  | transfer i =>
      have loop :=
        @history_flatMap_range Held _ (.transfer i)
          (fun i => (answers.xferAt i).toList.map .acquire ++ [.use (some .transferArray)])
          i
          (by
            intro index other
            rw [history_allocPass]
            simp [Ne.symm other])
          answers.xferBufNum
      rw [loop, history_allocPass]
      by_cases below : i < answers.xferBufNum
      · by_cases allocated : answers.transfer i = true
        · simp [below, allocated, idle (.transfer i) trivial, run_cons, afterTransfers]
        · simp [below, allocated, idle (.transfer i) trivial, afterTransfers]
      · simp [below, idle (.transfer i) trivial, afterTransfers]
  | bufferArray =>
      rw [history_flatMap_eq_nil (by
        intro i _
        rw [history_allocPass]
        simp)]
      simp [idle .bufferArray trivial, run_cons, afterTransfers]
  | _ =>
      rw [history_flatMap_eq_nil (by
        intro i _
        rw [history_allocPass]
        simp)]
      simp [afterTransfers]

/-- The zero-copy buffers that are freed again are not held. -/
theorem run_zeroCopied
    (idle : ∀ resource, Streaming resource → held resource = false) :
    run step (answers.afterTransfers held) (answers.zeroCopied build).accesses =
      some (answers.afterZeroCopied build held) := by
  have count := zeroCopyLoop_le answers 0 answers.xferBufNum
  rw [run_eq_some_iff]
  intro resource
  by_cases zeroCopy : ∃ j, resource = .buffer (.zeroCopy j)
  · obtain ⟨j, rfl⟩ := zeroCopy
    have before : answers.afterTransfers held (.buffer (.zeroCopy j)) = false :=
      idle (.buffer (.zeroCopy j)) trivial
    have loop := history_zeroCopyLoop answers 0 answers.xferBufNum j
    rw [before]
    unfold afterZeroCopied
    by_cases enabled : build.enableZerocopy = true
    · by_cases whole : (answers.zeroCopyLoop 0 answers.xferBufNum).whole = true
      · have same :
            answers.zeroCopied build = answers.zeroCopyLoop 0 answers.xferBufNum := by
          simp [zeroCopied, enabled, whole]
        have all := zeroCopied_count_of_whole (same ▸ whole)
        rw [same] at all
        rw [same, loop, all]
        by_cases below : j < answers.xferBufNum
        · simp [below, whole, run_cons]
        · simp [below]
      · have fallen :
            answers.zeroCopied build =
              ⟨(answers.zeroCopyLoop 0 answers.xferBufNum).count, false,
                (answers.zeroCopyLoop 0 answers.xferBufNum).accesses ++
                  (List.range answers.xferBufNum).flatMap fun i =>
                    if i < (answers.zeroCopyLoop 0 answers.xferBufNum).count then
                      [.release (.buffer (.zeroCopy i))]
                    else
                      []⟩ := by
          simp [zeroCopied, enabled, whole]
        have release :=
          @history_flatMap_range Held _ (.buffer (.zeroCopy j))
            (fun i =>
              if i < (answers.zeroCopyLoop 0 answers.xferBufNum).count then
                [.release (.buffer (.zeroCopy i))]
              else
                [])
            j
            (by
              intro index other
              split_ifs
              · simp [other]
              · rfl)
            answers.xferBufNum
        rw [fallen]
        dsimp only
        rw [history_append, loop, release]
        by_cases got : j < (answers.zeroCopyLoop 0 answers.xferBufNum).count
        · have below : j < answers.xferBufNum := by
            omega
          simp [got, below, run_cons]
        · simp [got]
    · rw [zeroCopied_disabled enabled]
      rfl
  · have other : ∀ j, resource ≠ .buffer (.zeroCopy j) :=
      fun j same => zeroCopy ⟨j, same⟩
    have nothing : history resource (answers.zeroCopied build).accesses = [] := by
      unfold zeroCopied
      split_ifs with enabled
      · dsimp only
        split_ifs
        · exact history_zeroCopyLoop_other answers 0 answers.xferBufNum other
        · dsimp only
          rw [history_append,
            history_zeroCopyLoop_other answers 0 answers.xferBufNum other,
            history_flatMap_eq_nil]
          · rfl
          · intro i _
            split_ifs
            · simp [Ne.symm (other i)]
            · rfl
      · rfl
    have same :
        answers.afterZeroCopied build held resource =
          answers.afterTransfers held resource := by
      unfold afterZeroCopied
      split
      · exact absurd rfl (other _)
      · rfl
    rw [nothing, same]
    rfl

/-- The buffers in userspace are those that the loop has got. -/
theorem run_userspaced
    (idle : ∀ resource, Streaming resource → held resource = false) :
    run step (answers.afterZeroCopied build held) (answers.userspaced build).accesses =
      some (answers.afterUserspaced build held) := by
  rw [run_eq_some_iff]
  intro resource
  by_cases userspace : ∃ j, resource = .buffer (.userspace j)
  · obtain ⟨j, rfl⟩ := userspace
    have before : answers.afterZeroCopied build held (.buffer (.userspace j)) = false :=
      idle (.buffer (.userspace j)) trivial
    have loop := history_userspaceLoop answers 0 answers.xferBufNum j
    rw [before]
    unfold afterUserspaced userspaced
    by_cases whole : (answers.zeroCopied build).whole = true
    · simp [whole]
    · simp only [whole, Bool.false_eq_true, if_false, loop]
      by_cases got : j < (answers.userspaceLoop 0 answers.xferBufNum).count
      · simp [got, run_cons]
      · simp [got]
  · have other : ∀ j, resource ≠ .buffer (.userspace j) :=
      fun j same => userspace ⟨j, same⟩
    have nothing : history resource (answers.userspaced build).accesses = [] := by
      unfold userspaced
      split_ifs
      · rfl
      · exact history_userspaceLoop_other answers 0 answers.xferBufNum other
    have same :
        answers.afterUserspaced build held resource =
          answers.afterZeroCopied build held resource := by
      unfold afterUserspaced
      split
      · exact absurd rfl (other _)
      · rfl
    rw [nothing, same]
    rfl

/-- The place of a buffer in the array. -/
def place : AsyncBuffer → Nat
  | .zeroCopy i => i
  | .userspace i => i

/-- A pointer of a sound stream leads to a buffer of its own place. -/
theorem Sound.place_of_xferBufAt
    (sound : answers.Sound build)
    {i : Nat}
    {buffer : AsyncBuffer}
    (found : answers.xferBufAt build i = some buffer) :
    place buffer = i := by
  by_cases whole : (answers.zeroCopied build).whole = true
  · unfold StreamAnswers.xferBufAt at found
    dsimp only at found
    rw [if_pos whole] at found
    cases found
    rfl
  · rw [sound.xferBufAt whole i] at found
    split_ifs at found
    cases found
    rfl

/-- The buffers that are held are those that the array points to. -/
theorem Sound.buffer_held_iff
    (sound : answers.Sound build)
    (buffer : AsyncBuffer) :
    answers.afterUserspaced build held (.buffer buffer) = true ↔
      place buffer < answers.xferBufNum ∧
        answers.xferBufAt build (place buffer) = some buffer := by
  by_cases whole : (answers.zeroCopied build).whole = true
  · have pointer :
        answers.xferBufAt build (place buffer) = some (.zeroCopy (place buffer)) := by
      unfold StreamAnswers.xferBufAt
      dsimp only
      rw [if_pos whole]
    rw [pointer]
    cases buffer <;> simp [afterUserspaced, afterZeroCopied, whole, place]
  · have bound : (answers.userspaced build).count ≤ answers.xferBufNum := by
      have loop := (userspaceLoop_le answers 0 answers.xferBufNum).2
      unfold userspaced
      rw [if_neg whole]
      omega
    rw [sound.xferBufAt whole]
    cases buffer with
    | zeroCopy j =>
        simp only [afterUserspaced, afterZeroCopied, whole, Bool.false_and,
          Bool.false_eq_true, false_iff, not_and, place]
        intro _ found
        by_cases got : j < (answers.userspaced build).count
        · simp [got] at found
        · simp [got] at found
    | userspace j =>
        simp only [afterUserspaced, whole, Bool.not_false, Bool.true_and, decide_eq_true_eq,
          place]
        constructor
        · intro got
          exact ⟨by omega, if_pos got⟩
        · rintro ⟨_, found⟩
          by_contra refused
          simp [refused] at found

/-- A pointer of a sound stream is given back to the function that it came from. -/
theorem Sound.map_freed
    (sound : answers.Sound build)
    (i : Nat) :
    (answers.xferBufAt build i).toList.map (freed (answers.zeroCopied build).whole) =
      (answers.xferBufAt build i).toList.map fun buffer => .release (.buffer buffer) := by
  by_cases whole : (answers.zeroCopied build).whole = true
  · unfold StreamAnswers.xferBufAt
    dsimp only
    rw [if_pos whole, whole]
    rfl
  · rw [sound.xferBufAt whole]
    split_ifs
    · simp [freed, whole]
    · rfl

include sound in
/-- The submissions use what is there. -/
theorem run_submitLoop :
    run step (answers.afterUserspaced build held)
        (answers.submitLoop build 0 answers.xferBufNum) =
      some (answers.afterUserspaced build held) := by
  have uses :
      ∀ left i,
        i + left = answers.xferBufNum →
        (∀ j, j < i → ¬ answers.submit j < 0) →
        ∀ access ∈ answers.submitLoop build i left,
          ∃ resource,
            access = .use (some resource) ∧
              answers.afterUserspaced build held resource = true := by
    intro left
    induction left with
    | zero =>
        intro i _ _ access member
        cases member
    | succ left inductionHypothesis =>
        intro i total submitted access member
        have below : i < answers.xferBufNum := by
          omega
        have allocated := sound.transfers i below submitted
        rw [submitLoop, List.cons_append, List.mem_cons, List.mem_append] at member
        rcases member with rfl | inBuffer | later
        · refine ⟨.transfer i, ?_, ?_⟩
          · rw [xferAt, if_pos allocated]
          · simp [afterUserspaced, afterZeroCopied, afterTransfers, below, allocated]
        · rw [List.mem_map] at inBuffer
          obtain ⟨buffer, found, rfl⟩ := inBuffer
          rw [Option.mem_toList] at found
          have own := sound.place_of_xferBufAt found
          refine ⟨.buffer buffer, rfl, (sound.buffer_held_iff buffer).mpr ?_⟩
          rw [own]
          exact ⟨below, found⟩
        · split_ifs at later with failed
          · cases later
          · apply inductionHypothesis (i + 1) (by omega) ?_ access later
            intro j upTo
            rcases Nat.lt_succ_iff_lt_or_eq.mp upTo with before | rfl
            · exact submitted j before
            · exact failed
  have none : ∀ j, j < 0 → ¬ answers.submit j < 0 :=
    fun j below => absurd below (Nat.not_lt_zero j)
  exact run_uses (uses answers.xferBufNum 0 (Nat.zero_add _) none)

/-! ## The end of a sound stream -/

/-- The freeing of one transfer, seen from a resource. -/
theorem history_freePass
    (answers : StreamAnswers)
    (i : Nat)
    (resource : Held) :
    history resource
        (.use (some .transferArray) :: (answers.xferAt i).toList.map .release) =
      (if resource = .transferArray then [.use (some .transferArray)] else []) ++
        if resource = .transfer i ∧ answers.transfer i = true then
          [.release (.transfer i)]
        else
          [] := by
  rw [← List.singleton_append, history_append, history_use]
  unfold xferAt
  by_cases allocated : answers.transfer i = true
  · by_cases own : resource = .transfer i
    · simp [allocated, own]
    · simp [allocated, own, eq_comm]
  · simp [allocated, eq_comm]

include sound in
theorem run_freeTransfers :
    run step (answers.afterUserspaced build held)
        (((List.range answers.xferBufNum).flatMap fun i =>
            .use answers.xfer :: (answers.xferAt i).toList.map .release) ++
          answers.xfer.toList.map .release) =
      some (answers.afterFreeTransfers build held) := by
  have xfer : answers.xfer = some .transferArray := if_pos sound.xfer
  rw [run_eq_some_iff]
  intro resource
  rw [xfer]
  simp only [history_append, Option.toList_some, List.map_cons, List.map_nil,
    history_release]
  cases resource with
  | transferArray =>
      have uses :=
        @history_uses Held _ Nat .transferArray
          (fun i => .use (some .transferArray) :: (answers.xferAt i).toList.map .release)
          (List.range answers.xferBufNum)
          (by
            intro i _ access member
            rw [history_freePass] at member
            simp at member
            exact ⟨_, member⟩)
      simp [run_append, run_cons, uses, afterUserspaced, afterZeroCopied, afterTransfers,
        afterFreeTransfers]
  | transfer i =>
      have loop :=
        @history_flatMap_range Held _ (.transfer i)
          (fun i => .use (some .transferArray) :: (answers.xferAt i).toList.map .release)
          i
          (by
            intro index other
            rw [history_freePass]
            simp [Ne.symm other])
          answers.xferBufNum
      rw [loop, history_freePass]
      by_cases below : i < answers.xferBufNum
      · by_cases allocated : answers.transfer i = true
        · simp [below, allocated, run_cons, afterUserspaced, afterZeroCopied,
            afterTransfers, afterFreeTransfers]
        · simp [below, allocated, afterUserspaced, afterZeroCopied, afterTransfers,
            afterFreeTransfers]
      · simp [below, afterUserspaced, afterZeroCopied, afterTransfers, afterFreeTransfers]
  | _ =>
      rw [history_flatMap_eq_nil (by
        intro i _
        rw [history_freePass]
        simp)]
      simp [afterFreeTransfers]

/-- The freeing of one buffer, seen from a resource. -/
theorem history_freeBufferPass
    (resource : Held)
    (pointer : Option AsyncBuffer) :
    history resource
        (.use (some .bufferArray) ::
          pointer.toList.map fun buffer => .release (.buffer buffer)) =
      (if resource = .bufferArray then [.use (some .bufferArray)] else []) ++
        match resource with
        | .buffer buffer =>
            if pointer = some buffer then [.release (.buffer buffer)] else []
        | _ =>
            [] := by
  rw [← List.singleton_append, history_append, history_use]
  rcases pointer with _ | found
  · cases resource <;> simp
  · cases resource with
    | buffer buffer =>
        by_cases same : found = buffer
        · simp [same]
        · simp [same]
    | _ =>
        simp

include sound in
theorem run_freeBuffers
    (idle : ∀ resource, Streaming resource → held resource = false) :
    run step (answers.afterFreeTransfers build held)
        (((List.range answers.xferBufNum).flatMap fun i =>
            .use answers.xferBuf ::
              (answers.xferBufAt build i).toList.map
                (freed (answers.zeroCopied build).whole)) ++
          answers.xferBuf.toList.map .release) =
      some held := by
  have xferBuf : answers.xferBuf = some .bufferArray := if_pos sound.xferBuf
  rw [run_eq_some_iff]
  intro resource
  rw [xferBuf]
  simp only [history_append, Option.toList_some, List.map_cons, List.map_nil,
    history_release, sound.map_freed]
  cases resource with
  | bufferArray =>
      have uses :=
        @history_uses Held _ Nat .bufferArray
          (fun i =>
            .use (some .bufferArray) ::
              (answers.xferBufAt build i).toList.map fun buffer => .release (.buffer buffer))
          (List.range answers.xferBufNum)
          (by
            intro i _ access member
            rw [history_freeBufferPass] at member
            simp at member
            exact ⟨_, member⟩)
      simp [run_append, run_cons, uses, afterUserspaced, afterZeroCopied, afterTransfers,
        afterFreeTransfers, idle .bufferArray trivial]
  | buffer buffer =>
      have loop :=
        @history_flatMap_range Held _ (.buffer buffer)
          (fun i =>
            .use (some .bufferArray) ::
              (answers.xferBufAt build i).toList.map fun buffer => .release (.buffer buffer))
          (place buffer)
          (by
            intro index other
            rw [history_freeBufferPass]
            have elsewhere : answers.xferBufAt build index ≠ some buffer :=
              fun found => other (sound.place_of_xferBufAt found).symm
            simp [elsewhere])
          answers.xferBufNum
      have isHeld := @Sound.buffer_held_iff _ _ held sound buffer
      have before :
          answers.afterFreeTransfers build held (.buffer buffer) =
            answers.afterUserspaced build held (.buffer buffer) := rfl
      rw [loop, history_freeBufferPass, before, idle (.buffer buffer) trivial]
      by_cases inArray : place buffer < answers.xferBufNum
      · by_cases found : answers.xferBufAt build (place buffer) = some buffer
        · rw [isHeld.mpr ⟨inArray, found⟩]
          simp [inArray, found, run_cons]
        · have idleBuffer :
              answers.afterUserspaced build held (.buffer buffer) = false := by
            rw [← Bool.not_eq_true]
            exact fun held => found (isHeld.mp held).2
          rw [idleBuffer]
          simp [inArray, found]
      · have idleBuffer : answers.afterUserspaced build held (.buffer buffer) = false := by
          rw [← Bool.not_eq_true]
          exact fun held => inArray (isHeld.mp held).1
        rw [idleBuffer]
        simp [inArray]
  | transferArray =>
      rw [history_flatMap_eq_nil (by
        intro i _
        rw [history_freeBufferPass]
        simp)]
      simp [afterFreeTransfers, idle .transferArray trivial]
  | transfer j =>
      rw [history_flatMap_eq_nil (by
        intro i _
        rw [history_freeBufferPass]
        simp)]
      simp [afterFreeTransfers, idle (.transfer j) trivial]
  | _ =>
      rw [history_flatMap_eq_nil (by
        intro i _
        rw [history_freeBufferPass]
        simp)]
      simp [afterFreeTransfers, afterUserspaced, afterZeroCopied, afterTransfers]

include sound in
/-- A sound stream touches only what it has, and leaves nothing behind. -/
theorem run_readAsync
    (idle : ∀ resource, Streaming resource → held resource = false) :
    run step held (answers.readAsync build) = some held := by
  unfold readAsync freeAsyncBuffers
  refine run_append_eq_some.mpr ⟨answers.afterUserspaced build held, ?_, ?_⟩
  · refine run_append_eq_some.mpr ⟨_, ?_, run_submitLoop sound⟩
    refine run_append_eq_some.mpr ⟨_, ?_, run_userspaced idle⟩
    exact run_append_eq_some.mpr ⟨_, run_allocTransfers sound idle, run_zeroCopied idle⟩
  · rw [List.append_assoc (_ ++ _)]
    exact run_append_eq_some.mpr ⟨_, run_freeTransfers sound, run_freeBuffers sound idle⟩

end Sound

/-! ## Streams that are not sound -/

theorem xferBufNum_pos (answers : StreamAnswers) : 0 < answers.xferBufNum := by
  unfold xferBufNum ReadAsync.defaultBufNumber
  split_ifs with given
  · exact given
  · decide

/-- A transfer that is not there is filled like the others. -/
theorem null_mem_submitLoop
    {missing : Nat}
    (absent : answers.xferAt missing = none)
    {i left : Nat}
    (inLoop : i ≤ missing ∧ missing < i + left)
    (submitted : ∀ j, i ≤ j → j < missing → ¬ answers.submit j < 0) :
    Access.use none ∈ answers.submitLoop build i left := by
  induction left generalizing i with
  | zero =>
      omega
  | succ left inductionHypothesis =>
      rw [submitLoop, List.cons_append, List.mem_cons, List.mem_append]
      rcases Nat.eq_or_lt_of_le inLoop.1 with rfl | later
      · exact .inl (congrArg Access.use absent.symm)
      · right
        right
        rw [if_neg (submitted i (Nat.le_refl i) later)]
        exact inductionHypothesis (by omega)
          fun j behind before => submitted j (by omega) before

/-- The pointer of a freed zero-copy buffer stays behind a buffer that `malloc` refused. -/
theorem null_mem_freeAsyncBuffers
    (back : answers.FallsBack build)
    {k j : Nat}
    (before : k < j)
    (obtained : answers.Obtains j)
    (refused : answers.userspace k = false) :
    Access.use none ∈ answers.freeAsyncBuffers build := by
  have fallen : ¬ (answers.zeroCopied build).whole = true :=
    fun whole => (zeroCopied_whole_iff.mp whole).2 back
  have count :
      (answers.userspaced build).count =
        (answers.userspaceLoop 0 answers.xferBufNum).count := by
    unfold userspaced
    rw [if_neg fallen]
  have ends : (answers.userspaceLoop 0 answers.xferBufNum).count ≤ k := by
    by_contra beyond
    have granted :=
      (userspaceLoop_count answers 0 answers.xferBufNum).1 k (Nat.zero_le k) (by omega)
    rw [refused] at granted
    cases granted
  have stale : answers.xferBufAt build j = some (.zeroCopy j) := by
    unfold StreamAnswers.xferBufAt
    dsimp only
    rw [if_neg fallen, count, if_neg (by omega), if_neg (by omega),
      if_pos ((lt_zeroCopied_iff back.1 j).mpr obtained)]
  unfold freeAsyncBuffers
  apply List.mem_append_left
  apply List.mem_append_right
  rw [List.mem_flatMap]
  refine ⟨j, List.mem_range.mpr obtained.1, ?_⟩
  rw [stale]
  simp [freed, fallen]

/-- Where something is missing the stream touches what is not there. -/
theorem null_mem_readAsync
    (unsound : ¬ answers.Sound build) :
    Access.use none ∈ answers.readAsync build := by
  have some' := answers.xferBufNum_pos
  unfold readAsync
  simp only [List.mem_append]
  by_cases array : answers.transferArray = true
  · by_cases bufferArray : answers.bufferArray = true
    · by_cases transfers :
          ∀ i, i < answers.xferBufNum → (∀ j, j < i → ¬ answers.submit j < 0) →
            answers.transfer i = true
      · have stale :
            ¬ (answers.FallsBack build →
              ∀ k j, k < j → answers.Obtains j → answers.userspace k = true) :=
          fun buffers => unsound ⟨array, bufferArray, transfers, buffers⟩
        push Not at stale
        obtain ⟨back, k, j, before, obtained, refused⟩ := stale
        exact .inr (null_mem_freeAsyncBuffers back before obtained (by simpa using refused))
      · push Not at transfers
        obtain ⟨i, below, submitted, missing⟩ := transfers
        refine .inl (.inr ?_)
        apply null_mem_submitLoop (if_neg missing) (by omega)
        intro j _ before
        exact submitted j before
    · refine .inl (.inl (.inl (.inl ?_)))
      have xferBuf : answers.xferBuf = none := if_neg bufferArray
      simp [allocTransfers, xferBuf]
  · refine .inl (.inl (.inl (.inl ?_)))
    have xfer : answers.xfer = none := if_neg array
    unfold allocTransfers
    rw [xfer]
    apply List.mem_append_left
    apply List.mem_append_left
    apply List.mem_append_right
    rw [List.mem_flatMap]
    exact ⟨0, List.mem_range.mpr some', by simp⟩

/-- A stream leaves the ledger as it was exactly when it is sound. -/
theorem run_readAsync_iff
    {held : Held → Bool}
    (idle : ∀ resource, Streaming resource → held resource = false)
    (after : Held → Bool) :
    run step held (answers.readAsync build) = some after ↔
      answers.Sound build ∧ after = held := by
  by_cases sound : answers.Sound build
  · rw [run_readAsync sound idle, Option.some.injEq]
    simp [sound, eq_comm]
  · rw [run_of_null (null_mem_readAsync sound)]
    simp [sound]

end StreamAnswers

end LibRtlSdr.RtlSdr
