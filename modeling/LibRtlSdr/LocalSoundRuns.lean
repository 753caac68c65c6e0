import LibRtlSdr.LocalSound

namespace LibRtlSdr.LocalSound

open BoundedBuffer (blit window)
open PartialRun (run EveryState EveryStep)

/-!
# Runs of the sound ring

The indices are the numbers of written and of read bytes modulo the size, whatever
happens.  As long as the writer has room, less than a round lies between the two, and so
the indices tell how many bytes are unread; when it has none, one of its two steps breaks
the ring.
-/

variable {hardware : Hardware}

/-! ## Steps -/

/-- What a step can do, by where the two sides stand. -/
inductive Moves (hardware : Hardware) (s : Ring) : Action → Ring → Prop where
  | packet
      (samples : Nat → UInt8)
      (isIdle : s.writer = .idle) :
      Moves hardware s (.packet samples) (writeLocalSound samples s)
  | memcpy
      {src : List UInt8}
      (isCopying : s.writer = .copying src) :
      Moves hardware s .memcpy (memcpy hardware src s)
  | setWrIndex
      {src : List UInt8}
      {cnt : Nat}
      (isCopied : s.writer = .copied src cnt) :
      Moves hardware s .setWrIndex (setWrIndex hardware src cnt s)
  | compare
      (isIdle : s.reader = .idle) :
      Moves hardware s .compare
        { s with reader := .compared false (decide (s.wrIndex ≥ s.rdIndex)) }
  | compareAgain
      (isAgain : s.reader = .again) :
      Moves hardware s .compare
        { s with reader := .compared true (decide (s.wrIndex ≥ s.rdIndex)) }
  | measure
      {isSecond notBehind : Bool}
      (isCompared : s.reader = .compared isSecond notBehind) :
      Moves hardware s .measure (measure hardware isSecond notBehind s)
  | avail
      {length : Int}
      (bytes : Nat)
      (isMeasured : s.reader = .measured length) :
      Moves hardware s (.avail bytes)
        { s with reader := .sending (if length < bytes then length else bytes) }
  | send
      {length : Int}
      (isSending : s.reader = .sending length) :
      Moves hardware s .send (send hardware length s)
  | setRdIndex
      {length : Int}
      {cnt : Nat}
      (isSent : s.reader = .sent length cnt) :
      Moves hardware s .setRdIndex (setRdIndex hardware length cnt s)

theorem moves_of_step
    {s next : Ring}
    {action : Action}
    (taken : step hardware s action = some next) :
    Moves hardware s action next := by
  unfold step at taken
  split at taken
  all_goals split at taken
  all_goals try contradiction
  all_goals
    rename_i stands
    obtain rfl := Option.some.inj taken
  · exact .packet _ stands
  · exact .memcpy stands
  · exact .setWrIndex stands
  · exact .compare stands
  · exact .compareAgain stands
  · exact .measure stands
  · exact .avail _ stands
  · exact .send stands
  · exact .setRdIndex stands

/-! ## What holds in every run -/

/-- The bytes that `alsa_write` has still to move `wr_index` over. -/
def Writer.src : Writer → List UInt8
  | .idle => []
  | .copying src => src
  | .copied src _ => src

/-- The bytes of a call of `alsa_write_audio` that `rd_index` has still to move over. -/
def Reader.cnt : Reader → Nat
  | .sent _ cnt => cnt
  | _ => 0

/-- What the variables record of the run. -/
structure Tracks (hardware : Hardware) (s : Ring) : Prop where
  wrIndex : s.wrIndex = s.written % hardware.threadBufferSize
  rdIndex : s.rdIndex = s.read % hardware.threadBufferSize
  pending : ∃ done, s.passed = done ++ s.writer.src ∧ done.length = s.written
  origins :
    ∀ place count, s.origin place = some count →
      s.passed[count]? = some (s.threadBuffer place)
  copied :
    ∀ src cnt, s.writer = .copied src cnt →
      cnt ≤ src.length ∧ s.wrIndex + cnt ≤ hardware.threadBufferSize ∧
        ∀ k < cnt, s.origin (s.wrIndex + k) = some (s.written + k)
  handed : s.handed.length = s.read + s.reader.cnt

theorem Tracks.initial : Tracks hardware Ring.initial where
  wrIndex := (Nat.zero_mod _).symm
  rdIndex := (Nat.zero_mod _).symm
  pending := ⟨[], rfl, rfl⟩
  origins _ _ known := absurd known (by simp [Ring.initial])
  copied _ _ isCopied := absurd isCopied (by simp [Ring.initial])
  handed := rfl

section Steps

variable {s : Ring}

theorem Tracks.wrIndex_lt (tracks : Tracks hardware s) :
    s.wrIndex < hardware.threadBufferSize := by
  rw [tracks.wrIndex]
  exact Nat.mod_lt _ hardware.threadBufferSize_pos

theorem Tracks.rdIndex_lt (tracks : Tracks hardware s) :
    s.rdIndex < hardware.threadBufferSize := by
  rw [tracks.rdIndex]
  exact Nat.mod_lt _ hardware.threadBufferSize_pos

/-- A step of the reader that changes no index. -/
theorem Tracks.withReader
    (tracks : Tracks hardware s)
    {reader : Reader}
    (sameCount : reader.cnt = s.reader.cnt) :
    Tracks hardware { s with reader := reader } :=
  ⟨tracks.wrIndex, tracks.rdIndex, tracks.pending, tracks.origins, tracks.copied,
    by rw [sameCount]; exact tracks.handed⟩

theorem Tracks.packet
    (tracks : Tracks hardware s)
    (isIdle : s.writer = .idle)
    (samples : Nat → UInt8) :
    Tracks hardware (writeLocalSound samples s) := by
  obtain ⟨done, passed, length⟩ := tracks.pending
  rw [isIdle, Writer.src, List.append_nil] at passed
  unfold writeLocalSound
  split
  · exact
      ⟨tracks.wrIndex, tracks.rdIndex, tracks.pending, tracks.origins, tracks.copied,
        tracks.handed⟩
  · refine
      ⟨tracks.wrIndex, tracks.rdIndex, ⟨done, congrArg (· ++ _) passed, length⟩, ?_, ?_,
        tracks.handed⟩
    · intro place count known
      have earlier := tracks.origins place count known
      have inside := (List.getElem?_eq_some_iff.mp earlier).1
      exact (List.getElem?_append_left inside).trans earlier
    · intro src cnt isCopied
      exact absurd isCopied (by simp [alsaWrite])

theorem Tracks.memcpy
    (tracks : Tracks hardware s)
    {src : List UInt8}
    (isCopying : s.writer = .copying src) :
    Tracks hardware (memcpy hardware src s) := by
  obtain ⟨done, passed, length⟩ := tracks.pending
  rw [isCopying, Writer.src] at passed
  have inside := tracks.wrIndex_lt
  unfold LocalSound.memcpy
  dsimp only
  refine ⟨tracks.wrIndex, tracks.rdIndex, ⟨done, passed, length⟩, ?_, ?_, tracks.handed⟩
  · intro place count known
    dsimp only at known ⊢
    split at known
    · rename_i isCopied
      obtain rfl := Option.some.inj known
      have within : place - s.wrIndex < src.length := by omega
      rw [passed, ← length, List.getElem?_append_right (by omega), Nat.add_sub_cancel_left]
      unfold blit
      rw [if_pos isCopied.1, List.getElem?_take_of_lt (by omega),
        List.getElem?_eq_getElem within, Option.getD_some]
    · rename_i isOther
      rw [tracks.origins place count known, BoundedBuffer.blit_of_outside]
      rw [List.length_take]
      omega
  · intro src' cnt' isCopied
    obtain ⟨rfl, rfl⟩ := Writer.copied.inj isCopied
    refine ⟨Nat.min_le_left _ _, by dsimp only; omega, ?_⟩
    intro k isBelow
    dsimp only
    rw [if_pos (by omega), Nat.add_sub_cancel_left]

theorem Tracks.setWrIndex
    (tracks : Tracks hardware s)
    {src : List UInt8}
    {cnt : Nat}
    (isCopied : s.writer = .copied src cnt) :
    Tracks hardware (setWrIndex hardware src cnt s) := by
  obtain ⟨done, passed, length⟩ := tracks.pending
  rw [isCopied, Writer.src] at passed
  obtain ⟨bound, -, -⟩ := tracks.copied src cnt isCopied
  unfold LocalSound.setWrIndex
  refine ⟨?_, tracks.rdIndex, ⟨done ++ src.take cnt, ?_, ?_⟩, tracks.origins, ?_, tracks.handed⟩
  · dsimp only
    rw [tracks.wrIndex, Nat.mod_add_mod]
  · have rest :
        (if src.length - cnt > 0 then Writer.copying (src.drop cnt) else .idle).src =
          src.drop cnt := by
      split
      · rfl
      · rw [List.drop_of_length_le (by omega)]
        rfl
    rw [rest, List.append_assoc, List.take_append_drop]
    exact passed
  · dsimp only
    rw [List.length_append, List.length_take, length]
    omega
  · intro src' cnt' isCopied'
    dsimp only at isCopied'
    split at isCopied' <;> exact absurd isCopied' (by simp)

theorem Tracks.send
    (tracks : Tracks hardware s)
    {length : Int}
    (isSending : s.reader = .sending length) :
    Tracks hardware (send hardware length s) := by
  have handed : s.handed.length = s.read := by
    have known := tracks.handed
    rw [isSending] at known
    exact known
  unfold LocalSound.send
  split
  · refine
      ⟨tracks.wrIndex, tracks.rdIndex, tracks.pending, tracks.origins, tracks.copied, ?_⟩
    dsimp only
    rw [List.length_append, BoundedBuffer.length_window, handed, Reader.cnt]
  · apply tracks.withReader
    rw [isSending]
    rfl

theorem Tracks.setRdIndex
    (tracks : Tracks hardware s)
    {length : Int}
    {cnt : Nat}
    (isSent : s.reader = .sent length cnt) :
    Tracks hardware (setRdIndex hardware length cnt s) := by
  have handed := tracks.handed
  rw [isSent, Reader.cnt] at handed
  refine ⟨tracks.wrIndex, ?_, tracks.pending, tracks.origins, tracks.copied, ?_⟩
  · unfold LocalSound.setRdIndex
    dsimp only
    rw [tracks.rdIndex, Nat.mod_add_mod]
  · exact handed

/-- Every step keeps track. -/
theorem Tracks.step
    {action : Action}
    {next : Ring}
    (tracks : Tracks hardware s)
    (taken : step hardware s action = some next) :
    Tracks hardware next := by
  cases moves_of_step taken with
  | packet samples isIdle =>
      exact tracks.packet isIdle samples
  | memcpy isCopying =>
      exact tracks.memcpy isCopying
  | setWrIndex isCopied =>
      exact tracks.setWrIndex isCopied
  | compare isIdle =>
      exact tracks.withReader (by rw [isIdle]; rfl)
  | compareAgain isAgain =>
      exact tracks.withReader (by rw [isAgain]; rfl)
  | measure isCompared =>
      unfold LocalSound.measure
      dsimp only
      split
      · exact tracks.withReader (by rw [isCompared]; rfl)
      · split <;> exact tracks.withReader (by rw [isCompared]; rfl)
  | avail bytes isMeasured =>
      exact tracks.withReader (by rw [isMeasured]; rfl)
  | send isSending =>
      exact tracks.send isSending
  | setRdIndex isSent =>
      exact tracks.setRdIndex isSent

end Steps

/-! ## Fill levels -/

section Levels

variable {s : Ring}

/-- The indices alone tell a level of less than a round. -/
theorem Tracks.filled_bounds (tracks : Tracks hardware s) :
    0 ≤ getThreadBufferFilled hardware s ∧
      getThreadBufferFilled hardware s < hardware.threadBufferSize := by
  have writer := tracks.wrIndex_lt
  have reader := tracks.rdIndex_lt
  unfold getThreadBufferFilled filledBy
  split
  · rename_i notBehind
    have above := of_decide_eq_true notBehind
    omega
  · rename_i isBehind
    rw [decide_eq_true_eq] at isBehind
    omega

/-- A comparison that is older than the subtraction finds no more than is unread, when
`wr_index` was not behind, or has not caught up since. -/
theorem Tracks.filledBy_le
    (tracks : Tracks hardware s)
    (ordered : s.read ≤ s.written)
    (short : s.written < s.read + hardware.threadBufferSize)
    (notBehind : Bool)
    (caughtUp :
      notBehind = false →
        hardware.threadBufferSize ≤ s.rdIndex + (s.written - s.read)) :
    filledBy hardware notBehind s.wrIndex s.rdIndex ≤ s.written - s.read := by
  have place := @CircularIndex.place_of_le hardware.threadBufferSize s.read s.written
    ordered short
  have placeBehind := @CircularIndex.place_of_lt hardware.threadBufferSize s.read s.written
    ordered short
  have writer := tracks.wrIndex_lt
  rw [← tracks.wrIndex, ← tracks.rdIndex] at place placeBehind
  unfold filledBy
  rcases Nat.lt_or_ge s.wrIndex s.rdIndex with behind | ahead
  · have known := placeBehind behind
    split <;> omega
  · have known := place ahead
    split
    · omega
    · rename_i isBehind
      have far := caughtUp (by simpa using isBehind)
      omega

/-- Less than a round apart, the indices tell how much is unread. -/
theorem Tracks.filled_eq
    (tracks : Tracks hardware s)
    (ordered : s.read ≤ s.written)
    (short : s.written < s.read + hardware.threadBufferSize) :
    getThreadBufferFilled hardware s = s.written - s.read := by
  have place := @CircularIndex.place_of_le hardware.threadBufferSize s.read s.written
    ordered short
  have placeBehind := @CircularIndex.place_of_lt hardware.threadBufferSize s.read s.written
    ordered short
  rw [← tracks.wrIndex, ← tracks.rdIndex] at place placeBehind
  unfold getThreadBufferFilled filledBy
  split
  · rename_i notBehind
    have known := place (of_decide_eq_true notBehind)
    omega
  · rename_i isBehind
    rw [decide_eq_true_eq] at isBehind
    have known := placeBehind (by omega)
    omega

/-- A ring that holds has less than a round of unread bytes. -/
theorem Ring.Holds.short
    (holds : s.Holds hardware)
    (tracks : Tracks hardware s) :
    s.read ≤ s.written ∧ s.written < s.read + hardware.threadBufferSize := by
  have bounds := tracks.filled_bounds
  rw [holds.filled] at bounds
  omega

end Levels

/-! ## Runs with room -/

/-- A reader has measured no more than is unread, and a comparison that found `wr_index`
behind still does. -/
def Reads (hardware : Hardware) (s : Ring) : Prop :=
  match s.reader with
  | .compared _ false => hardware.threadBufferSize ≤ s.rdIndex + (s.written - s.read)
  | .measured length => length ≤ (s.written : Int) - s.read
  | .sending length => length ≤ (s.written : Int) - s.read
  | .sent length cnt =>
      cnt ≤ length ∧ length ≤ (s.written : Int) - s.read ∧
        s.rdIndex + cnt ≤ hardware.threadBufferSize
  | _ => True

section Room

variable {s : Ring}

/-- The place of an unread byte. -/
theorem Tracks.place_unread
    (tracks : Tracks hardware s)
    (unread : Nat) :
    (s.rdIndex + unread) % hardware.threadBufferSize =
      (s.read + unread) % hardware.threadBufferSize := by
  rw [tracks.rdIndex, Nat.mod_add_mod]

/-- The place of a byte that is copied. -/
theorem Tracks.place_copied
    (tracks : Tracks hardware s)
    {k : Nat}
    (inside : s.wrIndex + k < hardware.threadBufferSize) :
    s.wrIndex + k = (s.written + k) % hardware.threadBufferSize := by
  rw [← Nat.mod_eq_of_lt inside, tracks.wrIndex, Nat.mod_add_mod]

theorem holds_packet
    (holds : s.Holds hardware)
    (samples : Nat → UInt8) :
    (writeLocalSound samples s).Holds hardware := by
  unfold writeLocalSound
  split
  · exact ⟨holds.inOrder, holds.intact, holds.filled⟩
  · exact ⟨holds.inOrder.trans (List.prefix_append _ _), holds.intact, holds.filled⟩

theorem holds_memcpy
    (tracks : Tracks hardware s)
    (holds : s.Holds hardware)
    {src : List UInt8}
    (room :
      (min src.length (hardware.threadBufferSize - s.wrIndex) : Nat) ≤
        alsaFree hardware s + 1) :
    (memcpy hardware src s).Holds hardware := by
  refine ⟨holds.inOrder, ?_, holds.filled⟩
  intro unread isUnread
  have known := holds.intact unread isUnread
  unfold memcpy at isUnread ⊢
  dsimp only at isUnread ⊢
  rw [if_neg, known]
  rintro ⟨notBelow, notAbove⟩
  -- a copied byte would stand at the place of an unread one, less than a round behind it
  unfold alsaFree at room
  rw [holds.filled] at room
  have inside := tracks.wrIndex_lt
  rw [tracks.place_unread] at notBelow notAbove
  obtain ⟨k, atPlace⟩ := Nat.exists_eq_add_of_le notBelow
  have place := tracks.place_copied (k := k) (by omega)
  exact
    CircularIndex.place_ne (show s.read + unread < s.written + k by omega) (by omega)
      (atPlace.trans place)

theorem holds_setWrIndex
    (tracks : Tracks hardware s)
    (holds : s.Holds hardware)
    {src : List UInt8}
    {cnt : Nat}
    (isCopied : s.writer = .copied src cnt)
    (room : cnt ≤ alsaFree hardware s) :
    (setWrIndex hardware src cnt s).Holds hardware := by
  obtain ⟨-, inside, origins⟩ := tracks.copied src cnt isCopied
  obtain ⟨ordered, -⟩ := holds.short tracks
  unfold alsaFree at room
  rw [holds.filled] at room
  refine ⟨holds.inOrder, ?_, ?_⟩
  · intro unread isUnread
    unfold setWrIndex at isUnread ⊢
    dsimp only at isUnread ⊢
    rcases Nat.lt_or_ge unread (s.written - s.read) with isOld | isNew
    · exact holds.intact unread isOld
    · obtain ⟨k, rfl⟩ := Nat.exists_eq_add_of_le isNew
      have number : s.read + (s.written - s.read + k) = s.written + k := by omega
      rw [tracks.place_unread, number, ← tracks.place_copied (by omega)]
      exact origins k (by omega)
  · exact (tracks.setWrIndex isCopied).filled_eq
      (by unfold setWrIndex; dsimp only; omega)
      (by unfold setWrIndex; dsimp only; omega)

/-- What is handed to ALSA continues what it has. -/
theorem holds_send
    (tracks : Tracks hardware s)
    (holds : s.Holds hardware)
    {length : Int}
    (isSending : s.reader = .sending length)
    (within : length ≤ (s.written : Int) - s.read) :
    (send hardware length s).Holds hardware := by
  have handed : s.handed.length = s.read := by
    have known := tracks.handed
    rw [isSending] at known
    exact known
  have inside := tracks.rdIndex_lt
  unfold send
  split
  · refine ⟨?_, holds.intact, holds.filled⟩
    dsimp only
    rw [List.prefix_iff_getElem?]
    intro place isPlace
    rw [List.length_append, BoundedBuffer.length_window, handed] at isPlace
    rcases Nat.lt_or_ge place s.read with isOld | isNew
    · rw [List.getElem_append_left (by omega)]
      exact List.prefix_iff_getElem?.mp holds.inOrder place (by omega)
    · obtain ⟨k, rfl⟩ := Nat.exists_eq_add_of_le isNew
      have known := holds.intact k (by omega)
      rw [Nat.mod_eq_of_lt (by omega)] at known
      rw [tracks.origins _ _ known, List.getElem_append_right (by omega)]
      simp [window, handed]
  · exact ⟨holds.inOrder, holds.intact, holds.filled⟩

theorem holds_setRdIndex
    (tracks : Tracks hardware s)
    (holds : s.Holds hardware)
    {length : Int}
    {cnt : Nat}
    (isSent : s.reader = .sent length cnt)
    (within : (cnt : Int) ≤ s.written - s.read) :
    (setRdIndex hardware length cnt s).Holds hardware := by
  obtain ⟨ordered, short⟩ := holds.short tracks
  refine ⟨holds.inOrder, ?_, ?_⟩
  · intro unread isUnread
    unfold setRdIndex at isUnread ⊢
    dsimp only at isUnread ⊢
    have known := holds.intact (cnt + unread) (by omega)
    rw [Nat.mod_add_mod, Nat.add_assoc, known, Nat.add_assoc]
  · exact (tracks.setRdIndex isSent).filled_eq
      (by unfold setRdIndex; dsimp only; omega)
      (by unfold setRdIndex; dsimp only; omega)

/-- More written bytes leave what the reader has measured in bounds. -/
theorem Reads.later
    (reads : Reads hardware s)
    {later : Ring}
    (sameReader : later.reader = s.reader)
    (sameIndex : later.rdIndex = s.rdIndex)
    (sameRead : later.read = s.read)
    (isLater : s.written ≤ later.written) :
    Reads hardware later := by
  unfold Reads at reads ⊢
  rw [sameReader, sameIndex, sameRead]
  split at reads <;> omega

/-- The comparison of `get_thread_buffer_filled`. -/
theorem reads_compare
    (tracks : Tracks hardware s)
    (holds : s.Holds hardware)
    (isSecond : Bool) :
    Reads hardware
      { s with reader := .compared isSecond (decide (s.wrIndex ≥ s.rdIndex)) } := by
  obtain ⟨ordered, short⟩ := holds.short tracks
  have place := CircularIndex.place_of_lt ordered short
  rw [← tracks.wrIndex, ← tracks.rdIndex] at place
  unfold Reads
  dsimp only
  rcases Nat.lt_or_ge s.wrIndex s.rdIndex with behind | ahead
  · have isBehind : decide (s.wrIndex ≥ s.rdIndex) = false := by
      rw [decide_eq_false_iff_not]
      omega
    rw [isBehind]
    have known := place behind
    dsimp only
    omega
  · have isAhead : decide (s.wrIndex ≥ s.rdIndex) = true := decide_eq_true ahead
    rw [isAhead]
    trivial

/-- The subtraction, and the comparison of `MIN`. -/
theorem reads_measure
    (tracks : Tracks hardware s)
    (holds : s.Holds hardware)
    (reads : Reads hardware s)
    {isSecond notBehind : Bool}
    (isCompared : s.reader = .compared isSecond notBehind) :
    Reads hardware (measure hardware isSecond notBehind s) := by
  obtain ⟨ordered, short⟩ := holds.short tracks
  have bounded :=
    tracks.filledBy_le ordered short notBehind
      (by
        rintro rfl
        unfold Reads at reads
        rw [isCompared] at reads
        exact reads)
  unfold measure
  dsimp only
  split
  · exact bounded
  · split
    · rename_i isLess
      exact Int.le_trans (Int.le_of_lt isLess) bounded
    · trivial

/-- The head of the loop. -/
theorem reads_send
    (tracks : Tracks hardware s)
    {length : Int}
    (within : length ≤ (s.written : Int) - s.read) :
    Reads hardware (send hardware length s) := by
  have inside := tracks.rdIndex_lt
  unfold send
  split
  · unfold Reads
    dsimp only
    omega
  · trivial

/-- A step that has room keeps what a ring promises and what its reader has measured. -/
theorem holds_step
    {action : Action}
    {next : Ring}
    (tracks : Tracks hardware s)
    (holds : s.Holds hardware)
    (reads : Reads hardware s)
    (room : HasRoom hardware s action)
    (taken : step hardware s action = some next) :
    next.Holds hardware ∧ Reads hardware next := by
  cases moves_of_step taken with
  | packet samples isIdle =>
      refine ⟨holds_packet holds samples, ?_⟩
      unfold writeLocalSound
      split <;> exact reads.later rfl rfl rfl (Nat.le_refl _)
  | memcpy isCopying =>
      exact
        ⟨holds_memcpy tracks holds (room _ isCopying),
          reads.later rfl rfl rfl (Nat.le_refl _)⟩
  | setWrIndex isCopied =>
      exact
        ⟨holds_setWrIndex tracks holds isCopied (room _ _ isCopied),
          reads.later rfl rfl rfl (Nat.le_add_right _ _)⟩
  | compare isIdle =>
      exact
        ⟨⟨holds.inOrder, holds.intact, holds.filled⟩, reads_compare tracks holds false⟩
  | compareAgain isAgain =>
      exact
        ⟨⟨holds.inOrder, holds.intact, holds.filled⟩, reads_compare tracks holds true⟩
  | measure isCompared =>
      refine ⟨?_, reads_measure tracks holds reads isCompared⟩
      unfold measure
      dsimp only
      split
      · exact ⟨holds.inOrder, holds.intact, holds.filled⟩
      · split <;> exact ⟨holds.inOrder, holds.intact, holds.filled⟩
  | @avail length bytes isMeasured =>
      refine ⟨⟨holds.inOrder, holds.intact, holds.filled⟩, ?_⟩
      unfold Reads at reads ⊢
      rw [isMeasured] at reads
      dsimp only at reads ⊢
      split <;> omega
  | send isSending =>
      have within := reads
      unfold Reads at within
      rw [isSending] at within
      exact ⟨holds_send tracks holds isSending within, reads_send tracks within⟩
  | @setRdIndex length cnt isSent =>
      have within := reads
      unfold Reads at within
      rw [isSent] at within
      obtain ⟨isPart, bounded, -⟩ := within
      refine ⟨holds_setRdIndex tracks holds isSent (by omega), ?_⟩
      unfold Reads setRdIndex
      dsimp only
      omega

/-! ## Runs without room -/

/-- A copy without room overwrites the first unread byte. -/
theorem room_of_memcpy
    (tracks : Tracks hardware s)
    (holds : s.Holds hardware)
    {src : List UInt8}
    (holdsNext : (memcpy hardware src s).Holds hardware) :
    (min src.length (hardware.threadBufferSize - s.wrIndex) : Nat) ≤
      alsaFree hardware s + 1 := by
  obtain ⟨ordered, short⟩ := holds.short tracks
  have writer := tracks.wrIndex_lt
  unfold alsaFree
  rw [holds.filled]
  by_contra tooMany
  obtain ⟨round, isRound⟩ :=
    Nat.exists_eq_add_of_le (show s.written - s.read ≤ hardware.threadBufferSize by omega)
  have unread : 0 < s.written - s.read := by omega
  have kept := holdsNext.intact 0 unread
  have place := tracks.place_copied (show s.wrIndex + round < _ by omega)
  have number : s.written + round = s.read + hardware.threadBufferSize := by omega
  rw [number, CircularIndex.place_round, ← Nat.add_zero s.read, ← tracks.place_unread]
    at place
  unfold memcpy at kept
  dsimp only at kept
  rw [← place, if_pos (by omega)] at kept
  have same := Option.some.inj kept
  omega

/-- An update of `wr_index` without room takes the level for one of a round less. -/
theorem room_of_setWrIndex
    (tracks : Tracks hardware s)
    (holds : s.Holds hardware)
    {src : List UInt8}
    {cnt : Nat}
    (isCopied : s.writer = .copied src cnt)
    (holdsNext : (setWrIndex hardware src cnt s).Holds hardware) :
    cnt ≤ alsaFree hardware s := by
  obtain ⟨-, short⟩ := holdsNext.short (tracks.setWrIndex isCopied)
  obtain ⟨ordered, -⟩ := holds.short tracks
  unfold setWrIndex at short
  dsimp only at short
  unfold alsaFree
  rw [holds.filled]
  omega

/-- A step that keeps the promises had room. -/
theorem room_of_holds
    {action : Action}
    {next : Ring}
    (tracks : Tracks hardware s)
    (holds : s.Holds hardware)
    (taken : step hardware s action = some next)
    (holdsNext : next.Holds hardware) :
    HasRoom hardware s action := by
  cases moves_of_step taken with
  | memcpy isCopying =>
      intro src isSrc
      obtain rfl := Writer.copying.inj (isCopying.symm.trans isSrc)
      exact room_of_memcpy tracks holds holdsNext
  | setWrIndex isCopied =>
      intro src cnt isCnt
      obtain ⟨rfl, rfl⟩ := Writer.copied.inj (isCopied.symm.trans isCnt)
      exact room_of_setWrIndex tracks holds isCopied holdsNext
  | _ => trivial

end Room

theorem holds_initial : Ring.initial.Holds hardware where
  inOrder := List.nil_prefix
  intact _ isUnread := absurd isUnread (by simp [Ring.initial])
  filled := rfl

/-- A ring keeps its promises in every state of a run exactly when its writer has room in
every step: a copy overwrites no unread byte, and `wr_index` moves by no more than
`alsa_free` tells. -/
theorem everyState_holds_iff
    (hardware : Hardware)
    (actions : List Action) :
    EveryState (step hardware) (Ring.Holds hardware) Ring.initial actions ↔
      EveryStep (step hardware) (HasRoom hardware) Ring.initial actions := by
  constructor
  · intro everyState earlier action later state next split reached taken
    have tracks : Tracks hardware state :=
      PartialRun.invariant (Tracks hardware) (fun tracks taken => tracks.step taken)
        Tracks.initial reached
    have holds := everyState earlier (action :: later) state split reached
    have holdsNext :=
      everyState (earlier ++ [action]) later next (by rw [split]; simp)
        (PartialRun.run_concat_eq_some.mpr ⟨state, reached, taken⟩)
    exact room_of_holds tracks holds taken holdsNext
  · intro everyStep earlier later state split reached
    subst split
    have kept :
        Tracks hardware state ∧ state.Holds hardware ∧ Reads hardware state :=
      PartialRun.invariant_of_everyStep
        (fun state => Tracks hardware state ∧ state.Holds hardware ∧ Reads hardware state)
        (fun before room taken =>
          ⟨before.1.step taken, holds_step before.1 before.2.1 before.2.2 room taken⟩)
        ⟨Tracks.initial, holds_initial, True.intro⟩
        everyStep.of_append reached
    exact kept.2.1

/-! ## A reader that does not run -/

/-- The ring behind the first turn of the loop for a packet of silence. -/
def afterSilence (hardware : Hardware) (s : Ring) : Ring :=
  let src := soundBytes (fun _ => 0)
  let cnt := min src.length (hardware.threadBufferSize - s.wrIndex)
  setWrIndex hardware src cnt (memcpy hardware src (alsaWrite src (countPacket s)))

/-- The steps up to there. -/
def silence : List Action :=
  [.packet (fun _ => 0), .memcpy, .setWrIndex]

/-- A ring that has got so many packets and given none. -/
structure Filled (count : Nat) (s : Ring) : Prop where
  writer : s.writer = .idle
  doOnce : s.doOnce = true
  inCount : s.inCount = count
  wrIndex : s.wrIndex = 504 * count
  rdIndex : s.rdIndex = 0
  written : s.written = 504 * count
  read : s.read = 0

section Silence

variable {s : Ring} {count : Nat}

theorem run_silence
    (filled : Filled count s)
    (early : count < 500) :
    run (step hardware) s silence = some (afterSilence hardware s) := by
  have isKept : leavesOut s = false := by
    unfold leavesOut threadBufferTime
    rw [filled.inCount]
    simp
    omega
  have begun :
      step hardware s (.packet fun _ => 0) =
        some (alsaWrite (soundBytes fun _ => 0) (countPacket s)) := by
    unfold step writeLocalSound
    dsimp only
    rw [filled.writer, isKept]
    rfl
  unfold silence
  rw [PartialRun.run_cons, begun, Option.bind_some]
  rfl

/-- A packet that fits leaves the writer behind it. -/
theorem filled_afterSilence
    (filled : Filled count s)
    (early : count < 500)
    (fits : 504 * (count + 1) < hardware.threadBufferSize) :
    Filled (count + 1) (afterSilence hardware s) := by
  have wrIndex := filled.wrIndex
  have length := length_soundBytes (fun _ => 0)
  have whole :
      min (soundBytes fun _ => 0).length (hardware.threadBufferSize - s.wrIndex) = 504 := by
    omega
  unfold afterSilence
  dsimp only
  rw [whole]
  refine ⟨?_, ?_, ?_, ?_, filled.rdIndex, ?_, filled.read⟩
  · unfold setWrIndex
    dsimp only
    rw [length, if_neg (by decide)]
  · have notLast : ¬ s.inCount > threadBufferTime := by
      unfold threadBufferTime
      rw [filled.inCount]
      omega
    unfold setWrIndex memcpy alsaWrite countPacket
    dsimp only
    rw [filled.doOnce, decide_eq_false notLast]
    rfl
  · unfold setWrIndex memcpy alsaWrite countPacket
    dsimp only
    rw [filled.doOnce, filled.inCount]
    rfl
  · unfold setWrIndex memcpy alsaWrite countPacket
    dsimp only
    rw [wrIndex, Nat.mod_eq_of_lt (by omega)]
    omega
  · unfold setWrIndex memcpy alsaWrite countPacket
    dsimp only
    rw [filled.written]
    omega

/-- So many packets fit. -/
theorem exists_filled
    (few : count ≤ 500)
    (fits : 504 * count < hardware.threadBufferSize) :
    ∃ s,
      run (step hardware) Ring.initial (List.replicate count silence).flatten = some s ∧
        Filled count s := by
  induction count with
  | zero =>
      exact ⟨Ring.initial, rfl, rfl, rfl, rfl, rfl, rfl, rfl, rfl⟩
  | succ count inductionHypothesis =>
      obtain ⟨s, reached, filled⟩ := inductionHypothesis (by omega) (by omega)
      refine ⟨afterSilence hardware s, ?_, filled_afterSilence filled (by omega) fits⟩
      rw [List.replicate_succ', List.flatten_append, List.flatten_singleton]
      exact PartialRun.run_append_eq_some.mpr ⟨s, reached, run_silence filled (by omega)⟩

/-- The packet that gets to the end of the buffer makes it look empty. -/
theorem not_holds_afterSilence
    (filled : Filled count s)
    (ends : hardware.threadBufferSize ≤ 504 * (count + 1))
    (fits : 504 * count < hardware.threadBufferSize) :
    ¬ (afterSilence hardware s).Holds hardware := by
  intro holds
  have wrIndex := filled.wrIndex
  have length := length_soundBytes (fun _ => 0)
  have rest :
      min (soundBytes fun _ => 0).length (hardware.threadBufferSize - s.wrIndex) =
        hardware.threadBufferSize - 504 * count := by
    omega
  have level := holds.filled
  have moved :
      (afterSilence hardware s).wrIndex = 0 ∧
        (afterSilence hardware s).written = hardware.threadBufferSize := by
    unfold afterSilence
    dsimp only
    rw [rest]
    unfold setWrIndex memcpy alsaWrite countPacket
    dsimp only
    rw [wrIndex, filled.written, Nat.add_sub_cancel' (by omega), Nat.mod_self]
    exact ⟨rfl, rfl⟩
  have unmoved :
      (afterSilence hardware s).rdIndex = 0 ∧ (afterSilence hardware s).read = 0 :=
    ⟨filled.rdIndex, filled.read⟩
  unfold getThreadBufferFilled filledBy at level
  rw [moved.1, moved.2, unmoved.1, unmoved.2] at level
  have positive := hardware.threadBufferSize_pos
  simp at level
  omega

end Silence

/-- A card with a buffer of 16384 bytes, in periods of 4096. -/
def smallCard : Hardware where
  hwBufferSize := 16384
  hwPeriodSize := 4096
  hwPeriodSizeIn := 4096
  isPart := by decide

/-- While ALSA takes nothing, 407 packets fill the ring and make it look empty. -/
theorem ring_overrun :
    ¬ ∀ (hardware : Hardware) (actions : List Action),
      EveryState (step hardware) (Ring.Holds hardware) Ring.initial actions := by
  intro always
  have size : smallCard.threadBufferSize = 204800 := by decide
  obtain ⟨s, reached, filled⟩ :=
    @exists_filled smallCard 406 (by decide) (by rw [size]; decide)
  have holds :=
    always smallCard ((List.replicate 406 silence).flatten ++ silence) _ [] _
      (List.append_nil _).symm
      (PartialRun.run_append_eq_some.mpr ⟨s, reached, run_silence filled (by decide)⟩)
  exact
    not_holds_afterSilence filled (by rw [size]; decide) (by rw [size]; decide) holds

end LibRtlSdr.LocalSound
