import LibRtlSdr.RtlAdsb
import Mathlib.Algebra.Ring.Parity
import Mathlib.Data.List.GetD
import Mathlib.Tactic.Ring
import Mathlib.Tactic.SplitIfs

namespace LibRtlSdr.RtlAdsb

/-!
# What `manchester` leaves in the buffer

The cells behind the place of a scan are final: they hold the marks of a
preamble, the bits of a run, or what separates a run from the next cells.  The
cells ahead are magnitudes still, but for the very next one, which holds a mark
if the encoding was broken at once.
-/

/-! ## One bit -/

/-- Two samples give a bit, or do not fit the two before them. -/
theorem singleManchester_cases
    (quality : Int)
    (a b c d : Nat) :
    singleManchester quality a b c d = badsample ∨
      singleManchester quality a b c d = (decide (c > d)).toNat := by
  unfold singleManchester
  dsimp only
  by_cases bit : c > d
  · simp only [bit, decide_true, true_and, not_true_eq_false, false_and,
      if_false, Bool.toNat_true]
    split_ifs <;> simp
  · simp only [bit, decide_false, Bool.false_eq_true, false_and, if_false,
      not_false_eq_true, true_and, Bool.toNat_false]
    split_ifs <;> simp

/-- A broken sample that is met again fits itself. -/
theorem singleManchester_again
    {quality : Int}
    {d : Nat}
    (magnitude : d ≠ badsample) :
    singleManchester quality badsample d badsample d ≠ badsample := by
  unfold badsample at magnitude
  unfold singleManchester badsample
  rcases Nat.lt_or_gt_of_ne magnitude with below | above
  · have notAbove : ¬ 255 < d := by omega
    simp only [below, notAbove, gt_iff_lt, decide_true, true_and,
      not_true_eq_false, false_and, and_false, if_true, if_false,
      Bool.toNat_true]
    split_ifs <;> decide
  · have notBelow : ¬ d < 255 := by omega
    simp only [above, notBelow, gt_iff_lt, decide_false, Bool.false_eq_true,
      false_and, if_false, not_false_eq_true, true_and, and_true, if_true,
      Bool.toNat_false]
    split_ifs <;> decide

/-! ## The search -/

/-- The search ends without a preamble, or at the first one. -/
theorem search_cases
    (left : Nat)
    (scan : Scan) :
    ((∀ passed < left, preamble scan.buf (scan.i + passed) = false) ∧
      search left scan = ({ scan with i := scan.i + left }, false)) ∨
    ∃ passed < left,
      (∀ earlier < passed, preamble scan.buf (scan.i + earlier) = false) ∧
        preamble scan.buf (scan.i + passed) = true ∧
        search left scan =
          ({ scan with
            a := scan.buf (scan.i + passed)
            b := scan.buf (scan.i + passed + 1)
            buf := fill scan.buf (scan.i + passed) preambleLen messagego
            i := scan.i + passed + preambleLen }, true) := by
  induction left generalizing scan with
  | zero =>
      exact .inl ⟨fun _ none => absurd none (Nat.not_lt_zero _), rfl⟩
  | succ left inductionHypothesis =>
      unfold search
      by_cases here : preamble scan.buf scan.i = true
      · rw [if_pos here]
        exact .inr ⟨0, Nat.succ_pos _,
          fun _ none => absurd none (Nat.not_lt_zero _), here, rfl⟩
      · rw [if_neg here]
        have notHere := Bool.eq_false_iff.mpr here
        rcases inductionHypothesis { scan with i := scan.i + 1 } with
          ⟨absent, ends⟩ | ⟨passed, inside, absent, found, ends⟩
        · refine .inl ⟨fun passed inside => ?_, ?_⟩
          · cases passed with
            | zero =>
                exact notHere
            | succ passed =>
                have later := absent passed (by omega)
                rwa [Nat.add_assoc, Nat.add_comm 1] at later
          · rw [ends, Nat.add_assoc, Nat.add_comm 1]
        · have place : scan.i + 1 + passed = scan.i + (passed + 1) := by
            omega
          dsimp only at absent found ends
          rw [place] at found ends
          refine .inr ⟨passed + 1, by omega, fun earlier before => ?_, found,
            ends⟩
          cases earlier with
          | zero =>
              exact notHere
          | succ earlier =>
              have later := absent earlier (by omega)
              rwa [Nat.add_assoc, Nat.add_comm 1] at later

/-! ## The bits of a run -/

/-- The bits until the encoding breaks, and if it does; `left` bounds their number. -/
def decodeBits
    (options : Options)
    (len : Nat)
    (samples : Buffer) :
    (left i a b : Nat) →
    (errors : Int) →
    List Bool × Bool
  | 0, _, _, _, _ =>
      ([], false)
  | left + 1, i, a, b, errors =>
      if i < len - 1 then
        let bit := decide (samples i > samples (i + 1))
        if singleManchester options.quality a b (samples i) (samples (i + 1)) =
            badsample then
          if errors + 1 > options.allowedErrors then
            ([], true)
          else
            let rest :=
              decodeBits options len samples left (i + 2) 0 65535 (errors + 1)
            (bit :: rest.1, rest.2)
        else
          let rest :=
            decodeBits options len samples left (i + 2) (samples i)
              (samples (i + 1)) errors
          (bit :: rest.1, rest.2)
      else
        ([], false)

/-- Bits are written from one cell on, for the samples from another one on. -/
def written
    (buf : Buffer)
    (first second : Nat)
    (bits : List Bool)
    (broken : Bool) : Buffer :=
  fun cell =>
    if first ≤ cell ∧ cell < first + bits.length then
      (bits.getD (cell - first) false).toNat
    else if broken ∧ cell = first + bits.length then
      badsample
    else if second ≤ cell ∧ cell < second + 2 * bits.length then
      overwrite
    else
      buf cell

/-- The first bit is stored, and then the others are written. -/
theorem written_store
    {marking : Marking}
    (ordered : marking.i2 ≤ marking.i)
    (bit : Bool)
    (a b : Nat)
    (errors : Int)
    (bits : List Bool)
    (broken : Bool) :
    written (marking.store bit.toNat a b errors).buf (marking.i2 + 1)
        (marking.i + 2) bits broken =
      written marking.buf marking.i2 marking.i (bit :: bits) broken := by
  funext cell
  unfold written Marking.store
  dsimp only
  rw [List.length_cons]
  by_cases isFirst : cell = marking.i2
  · rw [if_neg (by omega), if_neg (by omega), if_neg (by omega),
      if_pos (by omega), isFirst, Function.update_self, Nat.sub_self]
    rfl
  by_cases isBit : marking.i2 + 1 ≤ cell ∧ cell < marking.i2 + 1 + bits.length
  · have place : cell - marking.i2 = cell - (marking.i2 + 1) + 1 := by
      omega
    rw [if_pos isBit, if_pos (by omega), place]
    rfl
  have notBit :
      ¬ (marking.i2 ≤ cell ∧ cell < marking.i2 + (bits.length + 1)) := by
    omega
  have samePlace :
      marking.i2 + 1 + bits.length = marking.i2 + (bits.length + 1) := by
    omega
  rw [if_neg isBit, if_neg notBit, samePlace]
  by_cases isBroken : broken = true ∧ cell = marking.i2 + (bits.length + 1)
  · rw [if_pos isBroken, if_pos isBroken]
  rw [if_neg isBroken, if_neg isBroken]
  by_cases isLater :
      marking.i + 2 ≤ cell ∧ cell < marking.i + 2 + 2 * bits.length
  · rw [if_pos isLater, if_pos (by omega)]
  rw [if_neg isLater, Function.update_of_ne isFirst]
  by_cases isEven : cell = marking.i
  · rw [if_pos (by omega), isEven, Function.update_self]
  rw [Function.update_of_ne isEven]
  by_cases isOdd : cell = marking.i + 1
  · rw [if_pos (by omega), isOdd, Function.update_self]
  rw [Function.update_of_ne isOdd, if_neg (by omega)]

theorem written_nil
    (buf : Buffer)
    (first second : Nat) :
    written buf first second [] false = buf := by
  funext cell
  unfold written
  rw [List.length_nil, if_neg (by omega), if_neg (by simp), if_neg (by omega)]

theorem written_broken
    (buf : Buffer)
    (first second : Nat) :
    written buf first second [] true = Function.update buf first badsample := by
  funext cell
  unfold written
  rw [List.length_nil, if_neg (by omega)]
  by_cases same : cell = first
  · rw [if_pos ⟨rfl, same⟩, same, Function.update_self]
  · rw [if_neg fun here => same here.2, if_neg (by omega),
      Function.update_of_ne same]

/-- The cells behind the first bit are left as they are. -/
theorem written_behind
    {buf : Buffer}
    {first cell : Nat}
    (bits : List Bool)
    (broken : Bool)
    (behind : cell < first) :
    written buf first first bits broken cell = buf cell := by
  unfold written
  rw [if_neg (by omega), if_neg (by omega), if_neg (by omega)]

/-- The cells ahead are left as they are, but for the very next one. -/
theorem written_ahead
    {buf : Buffer}
    {first cell : Nat}
    {bits : List Bool}
    {broken : Bool}
    (ahead : first + 2 * bits.length ≤ cell)
    (next : broken = true → cell ≠ first + bits.length) :
    written buf first first bits broken cell = buf cell := by
  unfold written
  rw [if_neg (by omega), if_neg fun same => next same.1 same.2,
    if_neg (by omega)]

/-- Behind the bits there is a mark. -/
theorem written_ends
    {buf : Buffer}
    {first : Nat}
    {bits : List Bool}
    {broken : Bool}
    (ends : broken = true ∨ bits.length ≠ 0) :
    1 < written buf first first bits broken (first + bits.length) := by
  unfold written
  rw [if_neg (by omega)]
  split
  · decide
  · rename_i unbroken
    have some : bits.length ≠ 0 :=
      ends.resolve_left fun isBroken => unbroken ⟨isBroken, rfl⟩
    rw [if_pos (by omega)]
    decide

/-- What the marking has done when these bits have been decoded. -/
structure Writes
    (quality : Int)
    (samples : Buffer)
    (len : Nat)
    (marking : Marking)
    (bits : List Bool)
    (broken : Bool)
    (marked : Marking) : Prop where
  buf :
    marked.buf = written marking.buf marking.i2 marking.i bits broken
  i : marked.i = marking.i + 2 * bits.length
  i2 : marked.i2 = marking.i2 + bits.length
  inside : marking.i ≤ len → marked.i ≤ len
  breaks :
    broken = true →
      marked.a = samples marked.i ∧ marked.b = samples (marked.i + 1)
  ends : broken = false → len - 1 ≤ marked.i
  /-- The encoding is broken at once. -/
  stuck :
    broken = true →
      bits = [] →
        singleManchester quality marking.a marking.b (samples marking.i)
            (samples (marking.i + 1)) =
          badsample

/-- Nothing is decoded where the loop ends. -/
theorem writes_nothing
    (quality : Int)
    (samples : Buffer)
    {len : Nat}
    {marking : Marking}
    (outside : len - 1 ≤ marking.i) :
    Writes quality samples len marking [] false marking where
  buf := (written_nil _ _ _).symm
  i := rfl
  i2 := rfl
  inside := id
  breaks absurdity := absurd absurdity Bool.false_ne_true
  ends _ := outside
  stuck absurdity := absurd absurdity Bool.false_ne_true

/-- Nothing is decoded where the encoding breaks. -/
theorem writes_broken
    {quality : Int}
    {samples : Buffer}
    (len : Nat)
    {marking : Marking}
    (reads : ∀ cell, marking.i ≤ cell → marking.buf cell = samples cell)
    (breaks :
      singleManchester quality marking.a marking.b (samples marking.i)
          (samples (marking.i + 1)) =
        badsample) :
    Writes quality samples len marking [] true marking.broken where
  buf := (written_broken _ _ _).symm
  i := rfl
  i2 := rfl
  inside := id
  breaks _ := ⟨reads _ (Nat.le_refl _), reads _ (Nat.le_succ _)⟩
  ends absurdity := absurd absurdity.symm Bool.false_ne_true
  stuck _ _ := breaks

/-- A bit is decoded, and the others behind it. -/
theorem Writes.store
    {quality : Int}
    {samples : Buffer}
    {len : Nat}
    {marking marked : Marking}
    (ordered : marking.i2 ≤ marking.i)
    (before : marking.i < len - 1)
    {bit : Bool}
    {a b : Nat}
    {errors : Int}
    {bits : List Bool}
    {broken : Bool}
    (rest :
      Writes quality samples len (marking.store bit.toNat a b errors) bits
        broken marked) :
    Writes quality samples len marking (bit :: bits) broken marked where
  buf := by
    rw [rest.buf, ← written_store ordered]
    rfl
  i := by
    rw [rest.i, List.length_cons]
    dsimp only [Marking.store]
    omega
  i2 := by
    rw [rest.i2, List.length_cons]
    dsimp only [Marking.store]
    omega
  inside _ := rest.inside (by dsimp only [Marking.store]; omega)
  breaks := rest.breaks
  ends := rest.ends
  stuck _ none := absurd none (List.cons_ne_nil _ _)

/-- The marking reads no cell that it has written. -/
theorem mark_writes
    (options : Options)
    {len : Nat}
    {samples : Buffer}
    {left : Nat}
    {marking : Marking}
    (enough : len ≤ marking.i + 2 * left + 1)
    (ordered : marking.i2 ≤ marking.i)
    (reads : ∀ cell, marking.i ≤ cell → marking.buf cell = samples cell) :
    Writes options.quality samples len marking
      (decodeBits options len samples left marking.i marking.a marking.b
        marking.errors).1
      (decodeBits options len samples left marking.i marking.a marking.b
        marking.errors).2
      (mark options len left marking) := by
  induction left generalizing marking with
  | zero =>
      unfold mark decodeBits
      exact writes_nothing _ _ (by omega)
  | succ left inductionHypothesis =>
      unfold mark decodeBits
      by_cases inside : marking.i < len - 1
      · rw [if_pos inside, if_pos inside]
        dsimp only
        -- Behind a bit the loop goes on with the samples after it.
        have goesOn :
            ∀ (bit : Bool) (a b : Nat) (errors : Int),
              Writes options.quality samples len
                (marking.store bit.toNat a b errors)
                (decodeBits options len samples left (marking.i + 2) a b
                  errors).1
                (decodeBits options len samples left (marking.i + 2) a b
                  errors).2
                (mark options len left
                  (marking.store bit.toNat a b errors)) := by
          intro bit a b errors
          refine
            @inductionHypothesis (marking.store bit.toNat a b errors) ?_ ?_ ?_
          · dsimp only [Marking.store]
            omega
          · dsimp only [Marking.store]
            omega
          · intro cell isAhead
            dsimp only [Marking.store] at isAhead ⊢
            rw [Function.update_of_ne (by omega),
              Function.update_of_ne (by omega),
              Function.update_of_ne (by omega)]
            exact reads cell (by omega)
        rw [reads marking.i (Nat.le_refl _), reads _ (Nat.le_succ _)]
        split
        · rename_i breaks
          split
          · exact writes_broken len reads breaks
          · exact (goesOn _ _ _ _).store ordered inside
        · rename_i fits
          rw [(singleManchester_cases _ _ _ _ _).resolve_left fits]
          exact (goesOn _ _ _ _).store ordered inside
      · rw [if_neg inside, if_neg inside]
        exact writes_nothing _ _ (Nat.not_lt.mp inside)

/-! ## One round -/

/-- A round searches for a preamble and marks the bits of a run. -/
theorem pass_cases
    (options : Options)
    (len : Nat)
    (scan : Scan) :
    ∃ found preambled bits broken marked,
      search (len - preambleLen - scan.i) scan = (found, preambled) ∧
        Writes options.quality found.buf len found.marking bits broken
          marked ∧
        pass options len scan =
          marked.scan (found.runs ++ [⟨found.i, bits.length, preambled⟩]) := by
  rcases searched : search (len - preambleLen - scan.i) scan with
    ⟨found, preambled⟩
  have enough : len ≤ found.marking.i + 2 * len + 1 := by
    omega
  have reads :
      ∀ cell, found.marking.i ≤ cell →
        found.marking.buf cell = found.buf cell :=
    fun _ _ => rfl
  have writes := mark_writes options enough (Nat.le_refl _) reads
  refine ⟨found, preambled, _, _, _, rfl, writes, ?_⟩
  have counted :
      (mark options len len found.marking).i2 - found.i = _ :=
    (congrArg (· - found.i) writes.i2).trans (Nat.add_sub_cancel_left _ _)
  unfold pass
  dsimp only
  rw [searched, counted]

/-- The search changes nothing behind the scan, and cells behind its own place only. -/
structure Searched
    (len : Nat)
    (scan found : Scan)
    (preambled : Bool) : Prop where
  later : scan.i ≤ found.i
  inside : scan.i ≤ len → found.i ≤ len
  runs : found.runs = scan.runs
  behind : ∀ cell < scan.i, found.buf cell = scan.buf cell
  ahead : ∀ cell, found.i ≤ cell → found.buf cell = scan.buf cell
  preamble :
    preambled = true →
      scan.i < found.i ∧ found.buf (found.i - 1) = messagego
  unmoved :
    found.i = scan.i → found = scan

theorem search_searched
    {len : Nat}
    {scan found : Scan}
    {preambled : Bool}
    (searched :
      search (len - preambleLen - scan.i) scan = (found, preambled)) :
    Searched len scan found preambled := by
  rcases search_cases (len - preambleLen - scan.i) scan with
    ⟨_, ends⟩ | ⟨passed, before, _, _, ends⟩
  · rw [searched] at ends
    cases ends
    exact
      { later := Nat.le_add_right _ _
        inside := by
          intro inside
          dsimp only
          omega
        runs := rfl
        behind := fun _ _ => rfl
        ahead := fun _ _ => rfl
        preamble := by
          intro absurdity
          cases absurdity
        unmoved := by
          intro same
          dsimp only at same
          rw [same] }
  · rw [searched] at ends
    cases ends
    have long : preambleLen = 16 :=
      rfl
    exact
      { later := by
          dsimp only
          omega
        inside := by
          intro inside
          dsimp only
          omega
        runs := rfl
        behind := by
          intro cell behind
          exact if_neg (by omega)
        ahead := by
          intro cell ahead
          exact if_neg (by dsimp only at ahead; omega)
        preamble := by
          intro _
          dsimp only
          exact ⟨by omega, if_pos (by omega)⟩
        unmoved := by
          intro same
          dsimp only at same
          omega }

/-- The cells of a run that is written stay as they are once a scan is past them. -/
structure Run.Written (run : Run) (buf : Buffer) (i : Nat) : Prop where
  behind : run.start + 2 * run.bits ≤ i
  bits : ∀ bit < run.bits, buf (run.start + bit) ≤ 1
  ends : 1 < buf (run.start + run.bits)
  preamble :
    run.preambled = true → 1 ≤ run.start ∧ 1 < buf (run.start - 1)

theorem Run.Written.of_kept
    {run : Run}
    {before after : Buffer}
    {i later : Nat}
    (written : run.Written before i)
    (some : run.bits ≠ 0)
    (ordered : i ≤ later)
    (kept : ∀ cell < i, after cell = before cell) :
    run.Written after later := by
  have behind := written.behind
  refine ⟨by omega, fun bit inside => ?_, ?_, fun preambled => ?_⟩
  · rw [kept _ (by omega)]
    exact written.bits bit inside
  · rw [kept _ (by omega)]
    exact written.ends
  · rcases written.preamble preambled with ⟨positive, mark⟩
    rw [kept _ (by omega)]
    exact ⟨positive, mark⟩

/-- What the buffer holds when the scan of magnitudes has come to its place. -/
structure Scan.Tracks (orig : Buffer) (len : Nat) (scan : Scan) : Prop where
  inside : scan.i ≤ len
  ahead : ∀ cell, scan.i < cell → scan.buf cell = orig cell
  here : scan.buf scan.i = orig scan.i ∨ scan.buf scan.i = badsample
  runs : ∀ run ∈ scan.runs, run.bits ≠ 0 → run.Written scan.buf scan.i

theorem Scan.start_tracks
    (orig : Buffer)
    (len : Nat) :
    (Scan.start orig).Tracks orig len where
  inside := Nat.zero_le _
  ahead _ _ := rfl
  here := .inl rfl
  runs _ member := absurd member List.not_mem_nil

section Passes

variable {options : Options} {len : Nat} {orig : Buffer} {scan : Scan}

/-- What a round leaves behind the scan and ahead of it. -/
theorem Writes.cells
    {quality : Int}
    {found : Scan}
    {bits : List Bool}
    {broken : Bool}
    {marked : Marking}
    (writes :
      Writes quality found.buf len found.marking bits broken marked) :
    marked.buf = written found.buf found.i found.i bits broken ∧
      marked.i = found.i + 2 * bits.length :=
  ⟨writes.buf, writes.i⟩

/-- No round changes a cell behind the scan. -/
theorem pass_behind
    (options : Options)
    (len : Nat)
    (scan : Scan) :
    scan.i ≤ (pass options len scan).i ∧
      ∀ cell < scan.i, (pass options len scan).buf cell = scan.buf cell := by
  rcases pass_cases options len scan with
    ⟨found, preambled, bits, broken, marked, isFound, writes, ends⟩
  have searched := search_searched isFound
  have later := searched.later
  rcases writes.cells with ⟨buf, place⟩
  rw [ends]
  refine ⟨by dsimp only [Marking.scan]; omega, fun cell behind => ?_⟩
  dsimp only [Marking.scan]
  rw [buf, written_behind bits broken (by omega)]
  exact searched.behind cell behind

/-- The run of a round is written. -/
theorem Writes.run_written
    {quality : Int}
    {found : Scan}
    {preambled : Bool}
    {bits : List Bool}
    {broken : Bool}
    {marked : Marking}
    (writes :
      Writes quality found.buf len found.marking bits broken marked)
    (searched : Searched len scan found preambled)
    (some : bits.length ≠ 0) :
    Run.Written ⟨found.i, bits.length, preambled⟩ marked.buf marked.i := by
  rcases writes.cells with ⟨buf, place⟩
  refine ⟨Nat.le_of_eq place.symm, fun bit inside => ?_, ?_,
    fun isPreambled => ?_⟩
  · dsimp only at inside ⊢
    rw [buf]
    unfold written
    rw [if_pos (by omega)]
    exact Bool.toNat_le _
  · dsimp only
    rw [buf]
    exact written_ends (.inr some)
  · rcases searched.preamble isPreambled with ⟨later, mark⟩
    dsimp only
    refine ⟨by omega, ?_⟩
    rw [buf, written_behind bits broken (by omega), mark]
    decide

/-- Every round keeps track of the magnitudes. -/
theorem Scan.Tracks.pass
    (tracks : scan.Tracks orig len)
    (options : Options) :
    (RtlAdsb.pass options len scan).Tracks orig len := by
  have behind := pass_behind options len scan
  rcases pass_cases options len scan with
    ⟨found, preambled, bits, broken, marked, isFound, writes, ends⟩
  have searched := search_searched isFound
  have later := searched.later
  rcases writes.cells with ⟨buf, place⟩
  rw [ends] at behind ⊢
  refine ⟨writes.inside (searched.inside tracks.inside),
    fun cell ahead => ?_, ?_, fun run member some => ?_⟩
  · dsimp only [Marking.scan] at ahead ⊢
    rw [buf, written_ahead (by omega) (fun _ => by omega),
      searched.ahead cell (by omega)]
    exact tracks.ahead cell (by omega)
  · dsimp only [Marking.scan]
    by_cases bad : broken = true ∧ bits.length = 0
    · right
      rw [buf, place, bad.1, List.length_eq_zero_iff.mp bad.2, written_broken]
      exact Function.update_self _ _ _
    · rw [buf, place,
        written_ahead (Nat.le_refl _) fun isBroken same =>
          bad ⟨isBroken, by omega⟩,
        searched.ahead _ (by omega)]
      by_cases moved : scan.i < found.i + 2 * bits.length
      · exact .inl (tracks.ahead _ moved)
      · have same : found.i + 2 * bits.length = scan.i := by
          omega
        rw [same]
        exact tracks.here
  · rcases List.mem_append.mp member with earlier | isLast
    · rw [searched.runs] at earlier
      exact (tracks.runs run earlier some).of_kept some behind.1 behind.2
    · rw [List.mem_singleton] at isLast
      subst isLast
      exact writes.run_written searched some

end Passes

/-! ## Rounds -/

section Rounds

variable {options : Options} {len : Nat}

/-- What every round preserves holds when the scan has ended. -/
theorem manchesterLoop_invariant
    (Invariant : Scan → Prop)
    (preserved :
      ∀ scan,
        Invariant scan → scan.i < len - 1 → Invariant (pass options len scan))
    {rounds : Nat}
    {scan final : Scan}
    (initially : Invariant scan)
    (ends : manchesterLoop options len rounds scan = some final) :
    Invariant final := by
  induction rounds generalizing scan with
  | zero =>
      unfold manchesterLoop at ends
      split at ends
      · cases ends
      · cases ends
        exact initially
  | succ rounds inductionHypothesis =>
      unfold manchesterLoop at ends
      split at ends
      · rename_i inside
        exact inductionHypothesis (preserved scan initially inside) ends
      · cases ends
        exact initially

/-- One round more makes no difference to a scan that has ended. -/
theorem manchesterLoop_add
    {rounds : Nat}
    {scan final : Scan}
    (ends : manchesterLoop options len rounds scan = some final)
    (more : Nat) :
    manchesterLoop options len (rounds + more) scan = some final := by
  induction rounds generalizing scan with
  | zero =>
      unfold manchesterLoop at ends
      split at ends
      · cases ends
      · rename_i outside
        rw [Nat.zero_add]
        cases more with
        | zero =>
            rw [manchesterLoop, if_neg outside, ends]
        | succ more =>
            rw [manchesterLoop, if_neg outside, ends]
  | succ rounds inductionHypothesis =>
      rw [Nat.add_right_comm]
      unfold manchesterLoop at ends ⊢
      split at ends
      · rename_i inside
        rw [if_pos inside]
        exact inductionHypothesis ends
      · rename_i outside
        rw [if_neg outside, ends]

/-- `manchester` has one result. -/
theorem Manchester.unique
    {buf : Buffer}
    {first second : Scan}
    (ends : Manchester options len buf first)
    (endsToo : Manchester options len buf second) :
    first = second := by
  rcases ends with ⟨rounds, ends⟩
  rcases endsToo with ⟨roundsToo, endsToo⟩
  have same := manchesterLoop_add ends roundsToo
  rw [Nat.add_comm, manchesterLoop_add endsToo rounds] at same
  exact (Option.some.inj same).symm

theorem Manchester.iff_eq
    {buf : Buffer}
    {scan : Scan}
    (ends : Manchester options len buf scan)
    (other : Scan) :
    Manchester options len buf other ↔ other = scan := by
  constructor
  · intro endsToo
    exact endsToo.unique ends
  · rintro rfl
    exact ends

/-- When `manchester` ends, it has kept track of the magnitudes. -/
theorem Manchester.tracks
    {buf : Buffer}
    {final : Scan}
    (ends : Manchester options len buf final) :
    final.Tracks buf len := by
  rcases ends with ⟨rounds, ends⟩
  exact manchesterLoop_invariant (Scan.Tracks buf len)
    (fun _ tracks _ => tracks.pass options) (Scan.start_tracks buf len) ends

/-- A round gets on, or breaks the encoding at the next sample. -/
theorem pass_progress
    (options : Options)
    {orig : Buffer}
    {scan : Scan}
    (tracks : scan.Tracks orig len)
    (inside : scan.i < len - 1) :
    scan.i < (pass options len scan).i ∨
      ((pass options len scan).i = scan.i ∧
        (pass options len scan).buf scan.i = badsample ∧
        (pass options len scan).a = scan.buf scan.i ∧
        (pass options len scan).b = orig (scan.i + 1) ∧
        singleManchester options.quality scan.a scan.b
          (scan.buf scan.i) (orig (scan.i + 1)) = badsample) := by
  rcases pass_cases options len scan with
    ⟨found, preambled, bits, broken, marked, isFound, writes, ends⟩
  have searched := search_searched isFound
  have later := searched.later
  rcases writes.cells with ⟨buf, place⟩
  by_cases moved : scan.i < marked.i
  · left
    rw [ends]
    exact moved
  · right
    have none : bits = [] := by
      apply List.eq_nil_of_length_eq_zero
      omega
    have isScan := searched.unmoved (by omega)
    have same : marked.i = scan.i := by
      omega
    have isBroken : broken = true := by
      by_contra unbroken
      have outside := writes.ends (Bool.eq_false_iff.mpr unbroken)
      omega
    have pair := writes.breaks isBroken
    have stuck := writes.stuck isBroken none
    have next := tracks.ahead (scan.i + 1) (Nat.lt_succ_self _)
    rw [isScan, none, isBroken, written_broken] at buf
    rw [isScan, same, next] at pair
    rw [isScan] at stuck
    dsimp only [Scan.marking] at stuck
    rw [next] at stuck
    rw [ends]
    dsimp only [Marking.scan]
    rw [buf]
    exact ⟨same, Function.update_self _ _ _, pair.1, pair.2, stuck⟩

/--
Three rounds get on: a sample that breaks the encoding at once is marked, and the
mark fits itself when it is met for the third time.
-/
theorem three_passes_progress
    {orig : Buffer}
    (magnitudes : ∀ cell < len, orig cell ≠ badsample)
    (options : Options)
    {scan : Scan}
    (tracks : scan.Tracks orig len)
    (inside : scan.i < len - 1) :
    scan.i < (pass options len (pass options len (pass options len scan))).i := by
  have first := tracks.pass options
  have second := first.pass options
  have secondLater := (pass_behind options len (pass options len scan)).1
  have thirdLater :=
    (pass_behind options len (pass options len (pass options len scan))).1
  rcases pass_progress options tracks inside with
    moved | ⟨place, marked, _, b, _⟩
  · omega
  rcases pass_progress options first (by omega) with
    moved | ⟨placeThen, markedThen, aThen, bThen, _⟩
  · omega
  rcases pass_progress options second (by omega) with
    moved | ⟨_, _, _, _, breaks⟩
  · omega
  rw [aThen, bThen, placeThen, markedThen, place, marked] at breaks
  exact absurd breaks (singleManchester_again (magnitudes _ (by omega)))

/-- The scan ends if it ends from the next round on. -/
theorem manchesterLoop_of_pass
    {options : Options}
    {rounds : Nat}
    {scan : Scan}
    (ends :
      ∃ final,
        manchesterLoop options len rounds (pass options len scan) =
          some final) :
    ∃ final, manchesterLoop options len (rounds + 1) scan = some final := by
  by_cases inside : scan.i < len - 1
  · obtain ⟨final, ends⟩ := ends
    exact ⟨final, by rw [manchesterLoop, if_pos inside, ends]⟩
  · exact ⟨scan, by rw [manchesterLoop, if_neg inside]⟩

/-- On magnitudes the scan ends within three rounds a cell. -/
theorem manchesterLoop_ends
    {orig : Buffer}
    (magnitudes : ∀ cell < len, orig cell ≠ badsample)
    (options : Options)
    {rounds : Nat}
    {scan : Scan}
    (tracks : scan.Tracks orig len)
    (enough : 3 * (len - scan.i) ≤ rounds) :
    ∃ final, manchesterLoop options len rounds scan = some final := by
  induction remaining : len - scan.i using Nat.strongRecOn
    generalizing rounds scan with
  | ind remaining inductionHypothesis =>
      by_cases inside : scan.i < len - 1
      · have moved := three_passes_progress magnitudes options tracks inside
        have third :=
          ((tracks.pass options).pass options).pass options
        obtain ⟨more, rfl⟩ : ∃ more, rounds = more + 1 + 1 + 1 :=
          ⟨rounds - 3, by omega⟩
        apply manchesterLoop_of_pass
        apply manchesterLoop_of_pass
        apply manchesterLoop_of_pass
        exact inductionHypothesis _ (by omega) third (by omega) rfl
      · exact ⟨scan, by cases rounds <;> rw [manchesterLoop, if_neg inside]⟩

end Rounds

/-! ## Magnitudes -/

/-- A square leaves 0 or 1 when it is divided by four. -/
theorem squares_mod_four
    (i : UInt8) :
    squares i % 4 = 0 ∨ squares i % 4 = 1 := by
  unfold squares
  generalize abs8 i.toNat = side
  rcases Nat.even_or_odd' side with ⟨half, rfl | rfl⟩
  · left
    have square : 2 * half * (2 * half) = 4 * (half * half) := by
      ring
    omega
  · right
    have square :
        (2 * half + 1) * (2 * half + 1) = 4 * (half * half + half) + 1 := by
      ring
    omega

/-- The mark of a bad sample, which leaves 3, is not a magnitude. -/
theorem Magnitude.ne_badsample
    (magnitude : Magnitude) :
    magnitude.value ≠ badsample := by
  rcases magnitude.isSum with ⟨i, q, isSum⟩
  rw [isSum]
  unfold badsample
  have first := squares_mod_four i
  have second := squares_mod_four q
  omega

/-- `manchester` ends for all magnitudes. -/
theorem manchester_ends
    {buf : Buffer}
    (magnitudes : ∀ cell, ∃ magnitude : Magnitude, buf cell = magnitude.value)
    (options : Options)
    (len : Nat) :
    ∃ scan, Manchester options len buf scan := by
  have notMarks : ∀ cell, buf cell ≠ badsample := by
    intro cell
    rcases magnitudes cell with ⟨magnitude, same⟩
    rw [same]
    exact magnitude.ne_badsample
  obtain ⟨final, ends⟩ :=
    manchesterLoop_ends (fun cell _ => notMarks cell) options
      (Scan.start_tracks buf len) (Nat.le_refl _)
  exact ⟨final, _, ends⟩

end LibRtlSdr.RtlAdsb
