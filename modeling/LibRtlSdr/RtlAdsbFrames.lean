import LibRtlSdr.RtlAdsbDecoder
import LibRtlSdr.RtlAdsbMessages

namespace LibRtlSdr.RtlAdsb

/-!
# The frames that `messages` displays

Every stretch of bits is come to, and in it every place where a frame begins.
So the frames that are displayed are those of the places that have enough bits
behind them, and they are displayed once, in their order in the buffer.
-/

/-! ## The places of a stretch -/

/-- No frame is begun behind the mark after its stretch. -/
theorem advance_le (bits : List Bool) : advance bits ≤ bits.length + 1 := by
  unfold advance
  split
  · exact Nat.le_refl _
  · split
    · omega
    · unfold collectedBits
      rw [List.length_take]
      omega

theorem Rest.lt
    {bits : List Bool}
    {offset : Nat}
    (rest : Rest bits offset) :
    offset < bits.length := by
  cases rest with
  | whole some =>
      exact List.length_pos_of_ne_nil some
  | behind _ more =>
      exact more

/-- A frame is begun at a cell, for some bits. -/
structure Begins
    (buf : Buffer)
    (len first count offset : Nat) : Prop where
  stretch : MaximalStretch buf len first count
  rest : Rest (bitsIn buf first count) offset

namespace Begins

variable {buf : Buffer} {len first count offset : Nat}

theorem lt
    (begins : Begins buf len first count offset) :
    offset < count := by
  have before := begins.rest.lt
  rwa [length_bitsIn] at before

/-- The stretch from the cell on. -/
theorem behind
    (begins : Begins buf len first count offset) :
    Stretch buf len (first + offset) (count - offset) :=
  begins.stretch.toStretch.drop (Nat.le_of_lt begins.lt)

theorem drop_eq
    (begins : Begins buf len first count offset) :
    (bitsIn buf first count).drop offset =
      bitsIn buf (first + offset) (count - offset) :=
  drop_bitsIn buf first (Nat.le_of_lt begins.lt)

/-- What is displayed, and from where `messages` goes on. -/
theorem messagesFrom
    (begins : Begins buf len first count offset) :
    messagesFrom buf len (first + offset) =
      (if Displays ((bitsIn buf first count).drop offset) then
          [shownFor ((bitsIn buf first count).drop offset) (first + offset)]
        else
          []) ++
        messagesFrom buf len
          (first + offset + advance ((bitsIn buf first count).drop offset)) := by
  have before := begins.lt
  rw [begins.drop_eq]
  exact begins.behind.messagesFrom (by omega)

end Begins

/-- If a cell is a bit, a frame is begun there. -/
def Arrives (buf : Buffer) (len i : Nat) : Prop :=
  i < len →
    buf i ≤ 1 →
    ∃ first count offset,
      Begins buf len first count offset ∧ i = first + offset

section Arrivals

variable {buf : Buffer} {len i first count offset : Nat}

/-- Behind a mark a stretch begins. -/
theorem arrives_of_mark
    (isMark : 0 < i → 1 < buf (i - 1)) :
    Arrives buf len i := by
  intro inside isBit
  have begun : ∃ count, 0 < count ∧ Stretch buf len i count :=
    Stretches.exists_stretch inside isBit
  rcases begun with ⟨count, positive, stretch⟩
  have maximal : MaximalStretch buf len i count :=
    { stretch with starts := fun before => Nat.not_le.mpr (isMark before) }
  refine ⟨i, count, 0, ⟨maximal, .whole ?_⟩, rfl⟩
  apply List.ne_nil_of_length_pos
  rw [length_bitsIn]
  exact positive

/-- From a frame `messages` arrives at the next one. -/
theorem Begins.arrives
    (begins : Begins buf len first count offset) :
    Arrives buf len
      (first + offset + advance ((bitsIn buf first count).drop offset)) := by
  have length := length_bitsIn buf first count
  have bound := advance_le ((bitsIn buf first count).drop offset)
  have before := begins.lt
  rw [List.length_drop, length] at bound
  rcases Nat.lt_trichotomy
      (offset + advance ((bitsIn buf first count).drop offset)) count with
    within | ends | behind
  · intro _ _
    refine ⟨first, count, _, ⟨begins.stretch, begins.rest.behind ?_⟩,
      Nat.add_assoc _ _ _⟩
    rwa [length]
  · rw [Nat.add_assoc, ends]
    intro inside isBit
    exact absurd isBit (begins.stretch.ends inside)
  · have last :
        offset + advance ((bitsIn buf first count).drop offset) =
          count + 1 := by
      omega
    rw [Nat.add_assoc, last]
    intro inside
    refine arrives_of_mark (fun _ => ?_) inside
    exact Nat.not_le.mp (begins.stretch.ends (by omega))

/-- A frame takes at least one cell. -/
theorem advance_pos (bits : List Bool) : 0 < advance bits := by
  unfold advance
  split
  · exact Nat.succ_pos _
  · split
    · decide
    · exact Nat.succ_pos _

/-- What is displayed is displayed for a place where a frame begins. -/
theorem begins_of_mem
    (arrives : Arrives buf len i)
    {shown : Shown}
    (member : shown ∈ messagesFrom buf len i) :
    i ≤ shown.first ∧
      ∃ first count offset,
        Begins buf len first count offset ∧
          Displays ((bitsIn buf first count).drop offset) ∧
          shown =
            shownFor ((bitsIn buf first count).drop offset)
              (first + offset) := by
  induction remaining : len - i using Nat.strongRecOn generalizing i with
  | ind remaining inductionHypothesis =>
      by_cases inside : i < len
      · by_cases isMark : 1 < buf i
        · rw [messagesFrom_mark fun _ => isMark] at member
          have later :=
            inductionHypothesis (len - (i + 1)) (by omega)
              (arrives_of_mark (i := i + 1) fun _ => isMark) member rfl
          exact ⟨Nat.le_of_succ_le later.1, later.2⟩
        · rcases arrives inside (Nat.not_lt.mp isMark) with
            ⟨first, count, offset, begins, rfl⟩
          rw [begins.messagesFrom, List.mem_append] at member
          rcases member with here | later
          · split at here
            · rename_i displays
              rw [List.mem_singleton] at here
              rw [here]
              exact ⟨Nat.le_refl _, first, count, offset, begins, displays,
                rfl⟩
            · exact absurd here List.not_mem_nil
          · have positive :=
              advance_pos ((bitsIn buf first count).drop offset)
            have found :=
              inductionHypothesis _ (by omega) begins.arrives later rfl
            exact ⟨Nat.le_trans (Nat.le_add_right _ _) found.1, found.2⟩
      · rw [messagesFrom_end (Nat.not_lt.mp inside)] at member
        exact absurd member List.not_mem_nil

/-- From every cell before a stretch `messages` comes to its first bit. -/
theorem messagesFrom_stretch
    (stretch : MaximalStretch buf len first count)
    (before : i ≤ first) :
    ∃ shown,
      messagesFrom buf len i = shown ++ messagesFrom buf len first := by
  induction remaining : first - i using Nat.strongRecOn generalizing i with
  | ind remaining inductionHypothesis =>
      rcases Nat.eq_or_lt_of_le before with rfl | earlier
      · exact ⟨[], rfl⟩
      have separates := stretch.starts (by omega)
      have within := stretch.inside
      by_cases isMark : 1 < buf i
      · rw [messagesFrom_mark fun _ => isMark]
        exact inductionHypothesis (first - (i + 1)) (by omega) (by omega) rfl
      · have begun : ∃ count, 0 < count ∧ Stretch buf len i count :=
          Stretches.exists_stretch (by omega) (Nat.not_lt.mp isMark)
        rcases begun with ⟨all, positive, other⟩
        have short : i + all < first := by
          by_contra long
          exact separates (other.member (by omega) (by omega))
        have bound := advance_le (bitsIn buf i all)
        have passed := advance_pos (bitsIn buf i all)
        rw [length_bitsIn] at bound
        rcases inductionHypothesis
            (first - (i + advance (bitsIn buf i all)))
            (by omega) (by omega) rfl with
          ⟨shown, later⟩
        rw [other.messagesFrom positive, later, ← List.append_assoc]
        exact ⟨_, rfl⟩

/-- From the first bit of a stretch it comes to every place where a frame begins. -/
theorem Begins.messagesFrom_first
    (begins : Begins buf len first count offset) :
    ∃ shown,
      RtlAdsb.messagesFrom buf len first =
        shown ++ RtlAdsb.messagesFrom buf len (first + offset) := by
  rcases begins with ⟨stretch, rest⟩
  induction rest with
  | whole =>
      exact ⟨[], rfl⟩
  | behind rest more inductionHypothesis =>
      rcases inductionHypothesis with ⟨shown, earlier⟩
      rw [earlier, Begins.messagesFrom ⟨stretch, rest⟩, ← List.append_assoc,
        Nat.add_assoc]
      exact ⟨_, rfl⟩

end Arrivals

/-! ## All frames -/

/-- The frames that are displayed are those with enough bits. -/
theorem mem_messages_iff
    {buf : Buffer}
    {len : Nat}
    {shown : Shown} :
    shown ∈ messages buf len ↔
      ∃ first count offset,
        Begins buf len first count offset ∧
          Displays ((bitsIn buf first count).drop offset) ∧
          shown =
            shownFor ((bitsIn buf first count).drop offset)
              (first + offset) := by
  rw [messages_eq]
  constructor
  · intro member
    have arrives : Arrives buf len 0 :=
      arrives_of_mark fun none => absurd none (Nat.lt_irrefl 0)
    exact (begins_of_mem arrives member).2
  · rintro ⟨first, count, offset, begins, displays, rfl⟩
    rcases messagesFrom_stretch begins.stretch (Nat.zero_le first) with
      ⟨earlier, comes⟩
    rcases begins.messagesFrom_first with ⟨before, places⟩
    rw [comes, places, begins.messagesFrom, if_pos displays]
    simp only [List.mem_append, List.mem_singleton, true_or, or_true]

/-- Frames are displayed in their order in the buffer. -/
theorem messages_ordered
    (buf : Buffer)
    (len : Nat) :
    (messages buf len).Pairwise fun earlier later =>
      earlier.first < later.first := by
  have fromCell :
      ∀ i, Arrives buf len i →
        (messagesFrom buf len i).Pairwise fun earlier later =>
          earlier.first < later.first := by
    intro i arrives
    induction remaining : len - i using Nat.strongRecOn generalizing i with
    | ind remaining inductionHypothesis =>
        by_cases inside : i < len
        · by_cases isMark : 1 < buf i
          · rw [messagesFrom_mark fun _ => isMark]
            exact
              inductionHypothesis (len - (i + 1)) (by omega) _
                (arrives_of_mark fun _ => isMark) rfl
          · rcases arrives inside (Nat.not_lt.mp isMark) with
              ⟨first, count, offset, begins, rfl⟩
            have positive :=
              advance_pos ((bitsIn buf first count).drop offset)
            rw [begins.messagesFrom, List.pairwise_append]
            refine ⟨?_, ?_, ?_⟩
            · split
              · exact List.pairwise_singleton _ _
              · exact List.Pairwise.nil
            · exact inductionHypothesis _ (by omega) _ begins.arrives rfl
            · intro earlier isEarlier later isLater
              have after := (begins_of_mem begins.arrives isLater).1
              split at isEarlier
              · rw [List.mem_singleton] at isEarlier
                rw [isEarlier]
                dsimp only [shownFor]
                omega
              · exact absurd isEarlier List.not_mem_nil
        · rw [messagesFrom_end (Nat.not_lt.mp inside)]
          exact List.Pairwise.nil
  rw [messages_eq]
  exact fromCell 0 (arrives_of_mark fun none => absurd none (Nat.lt_irrefl 0))

/-! ## Frames in decoded bits -/

section Scans

variable {orig : Buffer} {len : Nat} {scan : Scan} {segments : List Segment}

/-- A run behind a preamble has marks on both sides. -/
theorem Scan.Tracks.stretch
    (tracks : scan.Tracks orig len)
    {run : Run}
    (member : run ∈ scan.runs)
    (preambled : run.preambled = true)
    (some : run.bits ≠ 0) :
    MaximalStretch scan.buf len run.start run.bits where
  inside := by
    have behind := (tracks.runs run member some).behind
    have inside := tracks.inside
    omega
  members := (tracks.runs run member some).bits
  ends _ := Nat.not_le.mpr (tracks.runs run member some).ends
  starts _ :=
    Nat.not_le.mpr ((tracks.runs run member some).preamble preambled).2

/-- The bits of a segment are read from its cells. -/
theorem Segment.Holds.bitsIn_eq
    {segment : Segment}
    {buf : Buffer}
    {i : Nat}
    (holds : segment.Holds buf i) :
    bitsIn buf segment.start segment.bits.length = segment.bits := by
  apply List.ext_getElem (length_bitsIn _ _ _)
  intro bit _ inside
  simp only [bitsIn]
  rw [List.getElem_map, List.getElem_range,
    holds.cells bit inside, List.getD_eq_getElem _ _ inside]
  cases segment.bits[bit] <;> rfl

/-- Frames are begun in the bits of a segment behind a preamble. -/
theorem Scan.Lays.begins
    (lays : scan.Lays orig segments)
    (tracks : scan.Tracks orig len)
    {segment : Segment}
    (member : segment ∈ segments)
    (preambled : segment.preambled = true)
    {offset : Nat}
    (rest : Rest segment.bits offset) :
    Begins scan.buf len segment.start segment.bits.length offset where
  stretch := by
    have isRun : segment.run ∈ scan.runs := by
      rw [lays.runs]
      exact List.mem_map_of_mem member
    have before := rest.lt
    exact tracks.stretch isRun preambled (by dsimp only [Segment.run]; omega)
  rest := by
    rw [(lays.holds segment member).bitsIn_eq]
    exact rest

/-- Bits that are enough for a frame are displayed as they are. -/
theorem length_collectedBits
    (bits : List Bool) :
    (collectedBits bits).length = frameLenOf bits ↔
      frameLenOf bits ≤ bits.length := by
  rw [collectedBits, List.length_take]
  constructor
  · intro same
    rw [← same]
    exact Nat.min_le_right _ _
  · exact Nat.min_eq_left

end Scans

end LibRtlSdr.RtlAdsb
