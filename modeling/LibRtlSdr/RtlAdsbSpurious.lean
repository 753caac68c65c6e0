import LibRtlSdr.RtlAdsbFrames

namespace LibRtlSdr.RtlAdsb

/-!
# Frames that were never sent

`messages` cannot tell a decoded bit from a magnitude of 0 or 1, and it displays
a frame whose last bit is missing.  Everything else is kept apart: a run of bits
behind a preamble has marks on both sides, so that no frame reaches from it into
other cells.
-/

/-- A frame of bits that were decoded in one run behind a preamble. -/
structure Genuine (scan : Scan) (shown : Shown) : Prop where
  whole : shown.bits = shown.len
  frame : shown.frame = bytesOf (bitsIn scan.buf shown.first shown.len)
  run :
    ∃ run ∈ scan.runs,
      run.preambled = true ∧
        run.start ≤ shown.first ∧
        shown.first + shown.len ≤ run.start + run.bits

/-- The last bit of the frame is missing. -/
def OneShort (bits : List Bool) : Prop :=
  HasType bits ∧ frameLenOf bits = bits.length + 1

/--
No run behind a preamble lacks one bit of a frame, and nowhere else are there as
many cells that hold a 0 or a 1.
-/
structure Clean
    (orig : Buffer)
    (len : Nat)
    (segments : List Segment) : Prop where
  enough :
    ∀ segment ∈ segments,
      segment.preambled = true →
        ∀ offset, Rest segment.bits offset →
          ¬ OneShort (segment.bits.drop offset)
  elsewhere :
    ∀ first count,
      MaximalStretch (layout orig segments) len first count →
        (∀ segment ∈ segments,
          segment.preambled = true →
            ¬ (segment.start = first ∧ segment.bits.length = count)) →
        ∀ offset, Rest (bitsIn (layout orig segments) first count) offset →
          ¬ Displays ((bitsIn (layout orig segments) first count).drop offset)

section Scans

variable {orig : Buffer} {len : Nat} {scan : Scan} {segments : List Segment}

/-- If only such frames are displayed, the magnitudes are clean. -/
theorem clean_of_genuine
    (lays : scan.Lays orig segments)
    (tracks : scan.Tracks orig len)
    (genuine : ∀ shown ∈ messages scan.buf len, Genuine scan shown) :
    Clean orig len segments where
  enough := by
    rintro segment member preambled offset rest ⟨hasType, short⟩
    have begins := lays.begins tracks member preambled rest
    have same := (lays.holds segment member).bitsIn_eq
    have displays : Displays (segment.bits.drop offset) :=
      ⟨hasType, Nat.le_of_eq short⟩
    have shown :=
      mem_messages_iff.mpr
        ⟨_, _, _, begins, by rw [same]; exact displays, rfl⟩
    rw [same] at shown
    have whole := (length_collectedBits _).mp (genuine _ shown).whole
    omega
  elsewhere := by
    intro first count stretch noSegment offset rest displays
    rw [← lays.buf] at stretch rest displays
    have begins : Begins scan.buf len first count offset :=
      ⟨stretch, rest⟩
    have shown := mem_messages_iff.mpr ⟨_, _, _, begins, displays, rfl⟩
    rcases (genuine _ shown).run with ⟨run, isRun, preambled, after, within⟩
    dsimp only [shownFor] at after within
    have before := begins.lt
    have long : 0 < frameLenOf ((bitsIn scan.buf first count).drop offset) :=
      Nat.lt_of_lt_of_le (by decide) (shortFrame_le_frameLenOf _)
    have some : run.bits ≠ 0 := by
      omega
    rcases (tracks.stretch isRun preambled some).unique stretch
        ⟨after, by omega⟩ ⟨Nat.le_add_right first offset, by omega⟩ with
      ⟨sameStart, sameBits⟩
    rw [lays.runs] at isRun
    rcases List.mem_map.mp isRun with ⟨segment, member, rfl⟩
    exact noSegment segment member preambled ⟨sameStart, sameBits⟩

/-- On clean magnitudes only such frames are displayed. -/
theorem genuine_of_clean
    (lays : scan.Lays orig segments)
    (clean : Clean orig len segments)
    {shown : Shown}
    (member : shown ∈ messages scan.buf len) :
    Genuine scan shown := by
  rcases mem_messages_iff.mp member with
    ⟨first, count, offset, begins, displays, rfl⟩
  rcases begins with ⟨stretch, rest⟩
  by_cases isSegment :
      ∃ segment ∈ segments,
        segment.preambled = true ∧
          segment.start = first ∧ segment.bits.length = count
  · rcases isSegment with ⟨segment, isMember, preambled, rfl, rfl⟩
    have before := Rest.lt rest
    have same := (lays.holds segment isMember).bitsIn_eq
    rw [same] at rest displays before ⊢
    have notShort := clean.enough segment isMember preambled offset rest
    have whole :
        frameLenOf (segment.bits.drop offset) ≤
          (segment.bits.drop offset).length := by
      by_contra long
      have few := displays.2
      exact notShort ⟨displays.1, by omega⟩
    have length := List.length_drop (i := offset) (l := segment.bits)
    refine ⟨(length_collectedBits _).mpr whole, ?_, segment.run, ?_, preambled,
      Nat.le_add_right _ _, ?_⟩
    · dsimp only [shownFor]
      have within :
          frameLenOf (segment.bits.drop offset) ≤
            segment.bits.length - offset := by
        omega
      rw [← take_bitsIn scan.buf (segment.start + offset) within,
        ← drop_bitsIn scan.buf segment.start (Nat.le_of_lt before), same]
      rfl
    · rw [lays.runs]
      exact List.mem_map_of_mem isMember
    · dsimp only [shownFor, Segment.run]
      omega
  · have noSegment :
        ∀ segment ∈ segments,
          segment.preambled = true →
            ¬ (segment.start = first ∧ segment.bits.length = count) :=
      fun segment isMember preambled same =>
        isSegment ⟨segment, isMember, preambled, same⟩
    rw [lays.buf] at stretch rest displays
    exact absurd displays
      (clean.elsewhere first count stretch noSegment offset rest)

end Scans

/--
`manchester` has one result, and the magnitudes are decoded in one way; all
frames that are displayed are genuine if and only if that is clean.
-/
theorem genuine_iff_clean
    (options : Options)
    (bytes : Nat → UInt8)
    (len : Nat) :
    ∃ scan segments,
      (∀ other,
        Manchester options len (magnitute bytes) other ↔ other = scan) ∧
      (∀ others,
        Decodes options len (magnitute bytes) others ↔ others = segments) ∧
      ((∀ shown ∈ messages scan.buf len, Genuine scan shown) ↔
        Clean (magnitute bytes) len segments) := by
  have magnitudes :
      ∀ cell, ∃ magnitude : Magnitude,
        magnitute bytes cell = magnitude.value :=
    fun cell => ⟨⟨magnitute bytes cell, _, _, rfl⟩, rfl⟩
  rcases manchester_ends magnitudes options len with ⟨scan, ends⟩
  rcases ends.decodes with ⟨segments, decodes, lays⟩
  refine
    ⟨scan, segments, ends.iff_eq, decodes.iff_eq, ?_, fun clean _ => ?_⟩
  · exact clean_of_genuine lays ends.tracks
  · exact genuine_of_clean lays clean

/-- The bytes of the samples of a carrier that is hardly there. -/
def faintCarrier (i : Nat) : UInt8 :=
  if i % 2 = 0 then 128 else 127

/-- Magnitudes of 1 are displayed, though no preamble was found. -/
theorem not_genuine_faintCarrier :
    ¬ ∀ (options : Options) (bytes : Nat → UInt8) (len : Nat) (scan : Scan),
      0 ≤ options.allowedErrors →
        Manchester options len (magnitute bytes) scan →
        ∀ shown ∈ messages scan.buf len, Genuine scan shown := by
  intro always
  have ends :
      ((manchesterLoop ⟨10, 5⟩ 140 20 (.start (magnitute faintCarrier))).any
        fun scan =>
          (scan.runs.all fun run => !run.preambled) &&
            (messages scan.buf 140).length == 1) = true := by
    decide +kernel
  cases isScan :
      manchesterLoop ⟨10, 5⟩ 140 20 (.start (magnitute faintCarrier)) with
  | none =>
      rw [isScan] at ends
      exact absurd ends Bool.false_ne_true
  | some scan =>
  rw [isScan, Option.any_some] at ends
  rcases Bool.and_eq_true_iff.mp ends with ⟨noPreamble, many⟩
  rcases List.length_eq_one_iff.mp (beq_iff_eq.mp many) with ⟨shown, isShown⟩
  have member : shown ∈ messages scan.buf 140 := by
    rw [isShown]
    exact List.mem_singleton_self shown
  rcases (always ⟨10, 5⟩ faintCarrier 140 scan (by decide) ⟨20, isScan⟩ shown
      member).run with
    ⟨run, isRun, preambled, _⟩
  have notPreambled := List.all_eq_true.mp noPreamble run isRun
  rw [preambled] at notPreambled
  exact absurd notPreambled (by decide)

end LibRtlSdr.RtlAdsb
