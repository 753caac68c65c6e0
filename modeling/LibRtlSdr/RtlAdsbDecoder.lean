import LibRtlSdr.RtlAdsbManchester

namespace LibRtlSdr.RtlAdsb

/-!
# A decoder that writes nothing

`manchester` decodes the buffer that it writes into.  The decoder here only reads
magnitudes: a run is determined by them, by the options and by the place where
the run before it has ended.  What `manchester` leaves in the buffer is what has
been decoded, laid over the magnitudes.
-/

/-! ## Decoding -/

/-- A place in the magnitudes. -/
structure Place where
  i : Nat
  /-- The pair of samples before. -/
  a : Nat
  b : Nat
  /-- Has the encoding been broken at once here? -/
  bad : Bool

/-- The samples, as they are read from a place on. -/
def Place.samples (place : Place) (orig : Buffer) : Buffer :=
  if place.bad then Function.update orig place.i badsample else orig

/-- What is decoded between two places. -/
structure Segment where
  /-- The place of the first bit. -/
  start : Nat
  bits : List Bool
  /-- Do the bits follow a preamble? -/
  preambled : Bool
  /-- Do the bits end where the encoding breaks? -/
  broken : Bool
  deriving Repr, DecidableEq

/-- The first preamble within a number of samples. -/
def nextPreamble (samples : Buffer) (left i : Nat) : Option Nat :=
  (List.range left).find? fun passed => preamble samples (i + passed)

/-- The place behind a segment. -/
def Segment.next (segment : Segment) (samples : Buffer) : Place where
  i := segment.start + 2 * segment.bits.length
  a := samples (segment.start + 2 * segment.bits.length)
  b := samples (segment.start + 2 * segment.bits.length + 1)
  bad := segment.broken && segment.bits.isEmpty

/-- What is decoded from a place on. -/
def Place.segment
    (options : Options)
    (len : Nat)
    (orig : Buffer)
    (place : Place) : Segment :=
  let samples := place.samples orig
  let left := len - preambleLen - place.i
  match nextPreamble samples left place.i with
  | some passed =>
      let decoded :=
        decodeBits options len samples len
          (place.i + passed + preambleLen)
          (samples (place.i + passed)) (samples (place.i + passed + 1)) 0
      ⟨place.i + passed + preambleLen, decoded.1, true, decoded.2⟩
  | none =>
      let decoded :=
        decodeBits options len samples len (place.i + left) place.a place.b 0
      ⟨place.i + left, decoded.1, false, decoded.2⟩

/-- The segments from a place on, if there are so many at most. -/
def decodeFrom
    (options : Options)
    (len : Nat)
    (orig : Buffer) :
    (rounds : Nat) →
    Place →
    Option (List Segment)
  | 0, place =>
      if place.i < len - 1 then none else some []
  | rounds + 1, place =>
      if place.i < len - 1 then
        let segment := place.segment options len orig
        (decodeFrom options len orig rounds
          (segment.next (place.samples orig))).map (segment :: ·)
      else
        some []

/-- The place before the first sample. -/
def Place.first : Place where
  i := 0
  a := 0
  b := 0
  bad := false

/-- The magnitudes are decoded to these segments. -/
def Decodes
    (options : Options)
    (len : Nat)
    (orig : Buffer)
    (segments : List Segment) : Prop :=
  ∃ rounds, decodeFrom options len orig rounds .first = some segments

/-! ## Laying over -/

/-- A segment is laid over the samples that it was decoded from. -/
def Segment.lay (buf : Buffer) (segment : Segment) : Buffer :=
  written
    (if segment.preambled then
      fill buf (segment.start - preambleLen) preambleLen messagego
    else
      buf)
    segment.start segment.start segment.bits segment.broken

/-- Segments are laid over the magnitudes. -/
def layout (orig : Buffer) (segments : List Segment) : Buffer :=
  segments.foldl Segment.lay orig

/-- The run of a segment. -/
def Segment.run (segment : Segment) : Run where
  start := segment.start
  bits := segment.bits.length
  preambled := segment.preambled

/-! ## Round by round -/

/-- A preamble is a matter of its own samples. -/
theorem preambleLoop_congr
    {buf samples : Buffer}
    {i : Nat}
    (same : ∀ cell, i ≤ cell → buf cell = samples cell)
    (left i2 low high : Nat) :
    preambleLoop buf i left i2 low high =
      preambleLoop samples i left i2 low high := by
  induction left generalizing i2 low high with
  | zero =>
      rfl
  | succ left inductionHypothesis =>
      unfold preambleLoop
      rw [same (i + i2) (Nat.le_add_right _ _)]
      dsimp only
      rw [inductionHypothesis]

theorem preamble_congr
    {buf samples : Buffer}
    {i : Nat}
    (same : ∀ cell, i ≤ cell → buf cell = samples cell) :
    preamble buf i = preamble samples i :=
  preambleLoop_congr same _ _ _ _

/-- The bits of a segment are in the cells behind a place. -/
structure Segment.Holds
    (segment : Segment)
    (buf : Buffer)
    (i : Nat) : Prop where
  behind : segment.start + segment.bits.length ≤ i
  cells :
    ∀ bit < segment.bits.length,
      buf (segment.start + bit) = (segment.bits.getD bit false).toNat

/-- A scan has come to a place, with the segments laid over the magnitudes. -/
structure Refines
    (orig : Buffer)
    (len : Nat)
    (segments : List Segment)
    (place : Place)
    (scan : Scan) : Prop where
  i : scan.i = place.i
  pair : scan.i < len - 1 → scan.a = place.a ∧ scan.b = place.b
  reads : ∀ cell, scan.i ≤ cell → scan.buf cell = place.samples orig cell
  buf : scan.buf = layout orig segments
  runs : scan.runs = segments.map Segment.run
  holds : ∀ segment ∈ segments, segment.Holds scan.buf scan.i

theorem refines_start
    (orig : Buffer)
    (len : Nat) :
    Refines orig len [] .first (.start orig) where
  i := rfl
  pair _ := ⟨rfl, rfl⟩
  reads _ _ := rfl
  buf := rfl
  runs := rfl
  holds _ member := absurd member List.not_mem_nil

section Rounds

variable {options : Options} {len : Nat} {orig : Buffer}
  {segments : List Segment} {place : Place} {scan : Scan}

/-- Behind a place the samples are the magnitudes. -/
theorem Place.samples_of_lt
    (place : Place)
    (orig : Buffer)
    {cell : Nat}
    (behind : place.i < cell) :
    place.samples orig cell = orig cell := by
  unfold Place.samples
  split
  · exact Function.update_of_ne (by omega) _ _
  · rfl

/-- Behind a segment there are the magnitudes, but for a sample that is bad at once. -/
theorem written_reads
    (inside : place.i < len - 1)
    {found : Scan}
    {segment : Segment}
    (later : place.i ≤ found.i)
    (starts : segment.start = found.i)
    (reads :
      ∀ cell, found.i ≤ cell → found.buf cell = place.samples orig cell)
    (broken :
      segment.start + 2 * segment.bits.length < len - 1 →
        segment.broken = true)
    (cell : Nat)
    (ahead : segment.start + 2 * segment.bits.length ≤ cell) :
    written found.buf found.i found.i segment.bits segment.broken cell =
      (segment.next (place.samples orig)).samples orig cell := by
  by_cases bad : (segment.broken && segment.bits.isEmpty) = true
  · rcases Bool.and_eq_true_iff.mp bad with ⟨isBroken, isEmpty⟩
    have none := List.isEmpty_iff.mp isEmpty
    have isBad : (segment.next (place.samples orig)).bad = true :=
      bad
    rw [none] at ahead ⊢
    rw [isBroken, written_broken, Place.samples, if_pos isBad]
    have same : (segment.next (place.samples orig)).i = found.i := by
      dsimp only [Segment.next]
      rw [none, starts]
      rfl
    rw [same]
    by_cases here : cell = found.i
    · rw [here, Function.update_self, Function.update_self]
    · rw [Function.update_of_ne here, Function.update_of_ne here]
      rw [List.length_nil] at ahead
      rw [reads cell (by omega)]
      exact place.samples_of_lt orig (by omega)
  · have isGood : ¬ (segment.next (place.samples orig)).bad = true :=
      bad
    have some : segment.broken = true → 0 < segment.bits.length := by
      intro isBroken
      apply List.length_pos_of_ne_nil
      intro none
      exact bad (by rw [isBroken, none]; rfl)
    rw [Place.samples, if_neg isGood]
    unfold written
    rw [if_neg (by omega), if_neg, if_neg (by omega), reads cell (by omega)]
    · apply place.samples_of_lt orig
      by_contra here
      have positive := some (broken (by omega))
      omega
    · rintro ⟨isBroken, same⟩
      have positive := some isBroken
      omega

/-- The bits of a segment are marked where they are decoded. -/
theorem marked_refines
    (inside : place.i < len - 1)
    {found : Scan}
    {segment : Segment}
    (searched :
      search (len - preambleLen - scan.i) scan = (found, segment.preambled))
    (later : place.i ≤ found.i)
    (reads :
      ∀ cell, found.i ≤ cell → found.buf cell = place.samples orig cell)
    (decoded :
      decodeBits options len (place.samples orig) len found.i found.a found.b
          0 =
        (segment.bits, segment.broken))
    (starts : segment.start = found.i)
    (lays : found.runs = segments.map Segment.run)
    (holds : ∀ segment ∈ segments, segment.Holds scan.buf scan.i)
    (laid :
      written found.buf found.i found.i segment.bits segment.broken =
        segment.lay (layout orig segments)) :
    Refines orig len (segments ++ [segment])
      (segment.next (place.samples orig))
      (pass options len scan) := by
  have enough : len ≤ found.marking.i + 2 * len + 1 := by
    omega
  have writes :=
    mark_writes options enough (Nat.le_refl _) reads
  dsimp only [Scan.marking] at writes
  rw [decoded] at writes
  have i : (mark options len len found.marking).i =
      segment.start + 2 * segment.bits.length := by
    rw [starts]
    exact writes.i
  have i2 : (mark options len len found.marking).i2 =
      found.i + segment.bits.length :=
    writes.i2
  have broken :
      (mark options len len found.marking).i < len - 1 →
        segment.broken = true := by
    intro before
    by_contra unbroken
    have ends := writes.ends (Bool.eq_false_iff.mpr unbroken)
    dsimp only [Scan.marking] at before
    omega
  rcases pass_behind options len scan with ⟨ordered, kept⟩
  unfold pass at ordered kept ⊢
  dsimp only at ordered kept ⊢
  rw [searched] at ordered kept ⊢
  dsimp only at ordered kept ⊢
  rw [i2, Nat.add_sub_cancel_left] at ordered kept ⊢
  refine ⟨i, fun before => ?_, fun cell ahead => ?_, ?_, ?_, ?_⟩
  · have pair := writes.breaks (broken before)
    dsimp only [Marking.scan, Segment.next]
    rw [← i]
    exact pair
  · dsimp only [Marking.scan] at ahead
    rw [i] at ahead broken
    refine (congrFun writes.buf cell).trans ?_
    exact written_reads inside later starts reads broken cell ahead
  · rw [layout, List.foldl_append]
    exact writes.buf.trans laid
  · dsimp only [Marking.scan]
    rw [lays, List.map_append, ← starts]
    rfl
  · intro earlier member
    rcases List.mem_append.mp member with before | isLast
    · rcases holds earlier before with ⟨behind, cells⟩
      refine ⟨Nat.le_trans behind ordered, fun bit inBits => ?_⟩
      rw [kept _ (by omega)]
      exact cells bit inBits
    · rw [List.mem_singleton] at isLast
      rw [isLast]
      refine ⟨?_, fun bit inBits => ?_⟩
      · dsimp only [Marking.scan]
        omega
      · refine (congrFun writes.buf (segment.start + bit)).trans ?_
        unfold written
        dsimp only
        rw [starts, if_pos (by omega), Nat.add_sub_cancel_left]

/-- What a round adds is the segment from the place on. -/
theorem Refines.pass
    (refines : Refines orig len segments place scan)
    (options : Options)
    (inside : scan.i < len - 1) :
    Refines orig len (segments ++ [place.segment options len orig])
      ((place.segment options len orig).next (place.samples orig))
      (pass options len scan) := by
  have sameI := refines.i
  rcases refines.pair inside with ⟨sameA, sameB⟩
  have isPreamble :
      ∀ passed,
        RtlAdsb.preamble scan.buf (scan.i + passed) =
          RtlAdsb.preamble (place.samples orig) (place.i + passed) := by
    intro passed
    rw [preamble_congr fun cell ahead => refines.reads cell (by omega), sameI]
  rw [sameI] at inside
  rcases search_cases (len - preambleLen - scan.i) scan with
    ⟨absent, ends⟩ | ⟨passed, before, absent, present, ends⟩
  · have none :
        nextPreamble (place.samples orig) (len - preambleLen - place.i)
          place.i = none := by
      rw [nextPreamble, List.find?_range_eq_none]
      intro passed before
      rw [← isPreamble, absent passed (by omega)]
      rfl
    unfold Place.segment
    dsimp only
    rw [none]
    refine marked_refines inside ends ?_ ?_ ?_ ?_ refines.runs refines.holds
      ?_
    · dsimp only
      omega
    · intro cell ahead
      exact refines.reads cell (by dsimp only at ahead; omega)
    · dsimp only
      rw [sameI, sameA, sameB]
    · dsimp only
      rw [sameI]
    · dsimp only [Segment.lay]
      rw [if_neg Bool.false_ne_true, refines.buf, sameI]
  · have some :
        nextPreamble (place.samples orig) (len - preambleLen - place.i)
          place.i = some passed := by
      rw [nextPreamble, List.find?_range_eq_some]
      refine ⟨?_, ?_, fun earlier isEarlier => ?_⟩
      · rw [← isPreamble]
        exact present
      · rw [List.mem_range]
        omega
      · rw [← isPreamble, absent earlier isEarlier]
        rfl
    unfold Place.segment
    dsimp only
    rw [some]
    refine marked_refines inside ends ?_ ?_ ?_ ?_ refines.runs refines.holds
      ?_
    · dsimp only
      omega
    · intro cell ahead
      dsimp only at ahead ⊢
      unfold fill
      rw [if_neg (by omega)]
      exact refines.reads cell (by omega)
    · dsimp only
      rw [refines.reads _ (Nat.le_add_right _ _),
        refines.reads _ (by omega), sameI]
    · dsimp only
      rw [sameI]
    · dsimp only [Segment.lay]
      rw [if_pos rfl, Nat.add_sub_cancel, ← refines.buf, sameI]

/-- When a scan has ended, the segments are laid over the magnitudes. -/
structure Scan.Lays
    (final : Scan)
    (orig : Buffer)
    (segments : List Segment) : Prop where
  buf : final.buf = layout orig segments
  runs : final.runs = segments.map Segment.run
  holds : ∀ segment ∈ segments, segment.Holds final.buf final.i

/-- No segment is left when the scan has ended. -/
theorem Refines.ended
    (refines : Refines orig len segments place scan) :
    scan.Lays orig (segments ++ []) := by
  rw [List.append_nil]
  exact ⟨refines.buf, refines.runs, refines.holds⟩

/-- As many rounds lead to the same end. -/
theorem Refines.loop
    (refines : Refines orig len segments place scan)
    {rounds : Nat}
    {final : Scan}
    (ends : manchesterLoop options len rounds scan = some final) :
    ∃ rest,
      decodeFrom options len orig rounds place = some rest ∧
        final.Lays orig (segments ++ rest) := by
  induction rounds generalizing segments place scan with
  | zero =>
      unfold manchesterLoop at ends
      unfold decodeFrom
      rw [← refines.i]
      split at ends
      · cases ends
      · rename_i outside
        cases ends
        rw [if_neg outside]
        exact ⟨[], rfl, refines.ended⟩
  | succ rounds inductionHypothesis =>
      unfold manchesterLoop at ends
      unfold decodeFrom
      rw [← refines.i]
      split at ends
      · rename_i inside
        rcases inductionHypothesis (refines.pass options inside) ends with
          ⟨rest, decoded, lays⟩
        rw [List.append_assoc] at lays
        rw [if_pos inside]
        dsimp only
        rw [decoded]
        exact ⟨_, rfl, lays⟩
      · rename_i outside
        cases ends
        rw [if_neg outside]
        exact ⟨[], rfl, refines.ended⟩

end Rounds

/-- `manchester` lays over the magnitudes what is decoded from them. -/
theorem Manchester.decodes
    {options : Options}
    {len : Nat}
    {orig : Buffer}
    {final : Scan}
    (ends : Manchester options len orig final) :
    ∃ segments,
      Decodes options len orig segments ∧ final.Lays orig segments := by
  rcases ends with ⟨rounds, ends⟩
  rcases (refines_start orig len).loop ends with ⟨rest, decoded, lays⟩
  exact ⟨rest, ⟨rounds, decoded⟩, lays⟩

/-- One round more makes no difference when all is decoded. -/
theorem decodeFrom_add
    {options : Options}
    {len : Nat}
    {orig : Buffer}
    {rounds : Nat}
    {place : Place}
    {segments : List Segment}
    (ends : decodeFrom options len orig rounds place = some segments)
    (more : Nat) :
    decodeFrom options len orig (rounds + more) place = some segments := by
  induction rounds generalizing place segments with
  | zero =>
      unfold decodeFrom at ends
      split at ends
      · cases ends
      · rename_i outside
        cases ends
        rw [Nat.zero_add]
        cases more with
        | zero =>
            rw [decodeFrom, if_neg outside]
        | succ more =>
            rw [decodeFrom, if_neg outside]
  | succ rounds inductionHypothesis =>
      rw [Nat.add_right_comm]
      unfold decodeFrom at ends ⊢
      split at ends
      · rename_i inside
        dsimp only at ends ⊢
        rcases Option.map_eq_some_iff.mp ends with ⟨rest, decoded, same⟩
        rw [if_pos inside, inductionHypothesis decoded, ← same]
        rfl
      · rename_i outside
        rw [if_neg outside, ends]

/-- There is one way to decode magnitudes. -/
theorem Decodes.unique
    {options : Options}
    {len : Nat}
    {orig : Buffer}
    {segments others : List Segment}
    (decodes : Decodes options len orig segments)
    (decodesToo : Decodes options len orig others) :
    segments = others := by
  rcases decodes with ⟨rounds, ends⟩
  rcases decodesToo with ⟨roundsToo, endsToo⟩
  have same := decodeFrom_add ends roundsToo
  rw [Nat.add_comm, decodeFrom_add endsToo rounds] at same
  exact (Option.some.inj same).symm

theorem Decodes.iff_eq
    {options : Options}
    {len : Nat}
    {orig : Buffer}
    {segments : List Segment}
    (decodes : Decodes options len orig segments)
    (others : List Segment) :
    Decodes options len orig others ↔ others = segments := by
  constructor
  · intro decodesToo
    exact decodesToo.unique decodes
  · rintro rfl
    exact decodes

end LibRtlSdr.RtlAdsb
