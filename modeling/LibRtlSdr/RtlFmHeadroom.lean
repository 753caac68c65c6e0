import LibRtlSdr.ConsecutivePairs
import LibRtlSdr.RtlFmDiscriminators
import LibRtlSdr.RtlFmLowPass
import LibRtlSdr.RtlFmSettings

namespace LibRtlSdr.RtlFm

/-!
# The headroom of the discriminators behind `low_pass`

A sample behind `low_pass` is the sum of `downsample` samples, and the discriminators
multiply two of them before they scale by 4096 or by 256.  The first scale leaves the
`int` from a factor of 4 on, the second from 17 on.
-/

open ConsecutivePairs (pairs)

/-- The samples that `low_pass` leaves of a stream, from the start. -/
def complexOutputs
    (s : DongleState)
    (downsample : Nat)
    (blocks : List Block) :
    List (Int × Int) :=
  iqPairs ((filterBlocks s (initialDemod downsample) blocks).1.map Int16.toInt)

/-- A method has a result for every two consecutive samples of every stream. -/
def DefinedOnStreams
    (method : Int → Int → Int → Int → Option Int)
    (downsample : Nat) :
    Prop :=
  ∀ (s : DongleState) (blocks : List Block),
    (∀ block ∈ blocks, block.len % 2 = 0) →
      ∀ pair ∈ pairs (0, 0) (complexOutputs s downsample blocks),
        (method pair.1.1 pair.1.2 pair.2.1 pair.2.2).isSome

/-! ## Products of samples -/

/-- A sample behind `low_pass`, and its components. -/
structure InBox (downsample : Nat) (sample : Int × Int) : Prop where
  first : -127 * (downsample : Int) ≤ sample.1 ∧ sample.1 ≤ 128 * downsample
  second : -127 * (downsample : Int) ≤ sample.2 ∧ sample.2 ≤ 128 * downsample

/-- The components of a product are largest together where one of them is 0. -/
theorem product_magnitudes
    {bound : Nat}
    {ar aj br bj : Int}
    (boundAr : ar.natAbs ≤ bound)
    (boundAj : aj.natAbs ≤ bound)
    (boundBr : br.natAbs ≤ bound)
    (boundBj : bj.natAbs ≤ bound) :
    (ar * br + aj * bj).natAbs + (aj * br - ar * bj).natAbs ≤ 2 * (bound * bound) := by
  have turned :
      ∀ u v : Int, u.natAbs + v.natAbs ≤ 2 * bound →
        (ar * u + aj * v).natAbs ≤ 2 * (bound * bound) := by
    intro u v small
    calc
      (ar * u + aj * v).natAbs ≤ (ar * u).natAbs + (aj * v).natAbs :=
        Int.natAbs_add_le _ _
      _ = ar.natAbs * u.natAbs + aj.natAbs * v.natAbs := by
        rw [Int.natAbs_mul, Int.natAbs_mul]
      _ ≤ bound * u.natAbs + bound * v.natAbs :=
        Nat.add_le_add (Nat.mul_le_mul_right _ boundAr) (Nat.mul_le_mul_right _ boundAj)
      _ = bound * (u.natAbs + v.natAbs) := (Nat.mul_add _ _ _).symm
      _ ≤ bound * (2 * bound) := Nat.mul_le_mul_left _ small
      _ = 2 * (bound * bound) := Nat.mul_left_comm _ _ _
  have sum := turned (br - bj) (br + bj) (by omega)
  have difference := turned (br + bj) (bj - br) (by omega)
  have isSum :
      ar * (br - bj) + aj * (br + bj) =
        (ar * br + aj * bj) + (aj * br - ar * bj) := by
    ring
  have isDifference :
      ar * (br + bj) + aj * (bj - br) =
        (ar * br + aj * bj) - (aj * br - ar * bj) := by
    ring
  rw [isSum] at sum
  rw [isDifference] at difference
  omega

/-- The product of two samples, without overflow. -/
theorem multiplyConjugate_eq_some
    {bound : Nat}
    (small : bound ≤ 32640)
    {ar aj br bj : Int}
    (boundAr : ar.natAbs ≤ bound)
    (boundAj : aj.natAbs ≤ bound)
    (boundBr : br.natAbs ≤ bound)
    (boundBj : bj.natAbs ≤ bound) :
    multiplyConjugate ar aj br bj = some (ar * br + aj * bj, aj * br - ar * bj) := by
  have square : bound * bound ≤ 32640 * 32640 := Nat.mul_le_mul small small
  have magnitudes := product_magnitudes boundAr boundAj boundBr boundBj
  have factor :
      ∀ u v : Int, u.natAbs ≤ bound → v.natAbs ≤ bound →
        (u * v).natAbs ≤ 32640 * 32640 := by
    intro u v boundU boundV
    rw [Int.natAbs_mul]
    exact (Nat.mul_le_mul boundU boundV).trans square
  have rr := factor ar br boundAr boundBr
  have jj := factor aj (-bj) boundAj (by omega)
  have jr := factor aj br boundAj boundBr
  have rj := factor ar (-bj) boundAr (by omega)
  have real : ar * br - aj * -bj = ar * br + aj * bj := by ring
  have imaginary : aj * br + ar * -bj = aj * br - ar * bj := by ring
  rw [multiplyConjugate_eq_some_iff, real, imaginary]
  unfold CheckedInt.Fits
  omega

/-- The imaginary part of a product of two samples. -/
theorem product_imaginary
    {downsample : Nat}
    {a b : Int × Int}
    (inBoxA : InBox downsample a)
    (inBoxB : InBox downsample b) :
    (a.2 * b.1 - a.1 * b.2).natAbs ≤ 32640 * (downsample * downsample) := by
  have factor :
      ∀ u v : Int,
        (-127 * (downsample : Int) ≤ u ∧ u ≤ 128 * downsample) →
        (-127 * (downsample : Int) ≤ v ∧ v ≤ 128 * downsample) →
          -16256 * ((downsample : Int) * downsample) ≤ u * v ∧
            u * v ≤ 16384 * ((downsample : Int) * downsample) := by
    intro u v ⟨lowerU, upperU⟩ ⟨lowerV, upperV⟩
    have nonneg : (0 : Int) ≤ downsample := Int.natCast_nonneg _
    have lowest :=
      Int.mul_nonneg (show 0 ≤ u + 127 * downsample by omega)
        (show 0 ≤ v + 127 * (downsample : Int) by omega)
    have highest :=
      Int.mul_nonneg (show 0 ≤ 128 * downsample - u by omega)
        (show 0 ≤ 128 * (downsample : Int) - v by omega)
    have left :=
      Int.mul_nonneg (show 0 ≤ u + 127 * downsample by omega)
        (show 0 ≤ 128 * (downsample : Int) - v by omega)
    have right :=
      Int.mul_nonneg (show 0 ≤ 128 * downsample - u by omega)
        (show 0 ≤ v + 127 * (downsample : Int) by omega)
    have together :=
      Int.mul_nonneg nonneg (show 0 ≤ 256 * (downsample : Int) - u - v by omega)
    constructor
    · nlinarith only [lowest, highest]
    · nlinarith only [left, right, together]
  have first := factor a.2 b.1 inBoxA.second inBoxB.first
  have second := factor a.1 b.2 inBoxA.first inBoxB.second
  omega

theorem InBox.natAbs_le
    {downsample : Nat}
    {sample : Int × Int}
    (inBox : InBox downsample sample) :
    sample.1.natAbs ≤ 128 * downsample ∧ sample.2.natAbs ≤ 128 * downsample := by
  obtain ⟨first, second⟩ := inBox
  omega

/-! ## The two methods -/

/-- Up to a factor of 3 the difference can be scaled by 4096. -/
theorem polarDiscFast_isSome
    {downsample : Nat}
    (few : downsample ≤ 3)
    {a b : Int × Int}
    (inBoxA : InBox downsample a)
    (inBoxB : InBox downsample b) :
    (polarDiscFast a.1 a.2 b.1 b.2).isSome := by
  have boundA := inBoxA.natAbs_le
  have boundB := inBoxB.natAbs_le
  have square : 128 * downsample * (128 * downsample) ≤ 384 * 384 :=
    Nat.mul_le_mul (by omega) (by omega)
  have magnitudes := product_magnitudes boundA.1 boundA.2 boundB.1 boundB.2
  unfold polarDiscFast
  rw [multiplyConjugate_eq_some (by omega) boundA.1 boundA.2 boundB.1 boundB.2]
  generalize a.1 * b.1 + a.2 * b.2 = cr at *
  generalize a.2 * b.1 - a.1 * b.2 = cj at *
  change (fastAtan2 cj cr).isSome
  by_cases turned : cr = 0 ∧ cj = 0
  · rw [turned.1, turned.2]
    rfl
  · rw [Option.isSome_iff_exists]
    refine ⟨_, (fastAtan2_eq_some_iff turned).mpr ⟨?_, ?_, ?_, ?_, rfl⟩⟩
    · intro negative
      unfold CheckedInt.Fits
      omega
    · unfold CheckedInt.Fits octantDifference
      split <;> omega
    · unfold CheckedInt.Fits
      omega
    · unfold CheckedInt.Fits octantDifference
      split <;> omega

/-- From a factor of 4 on it cannot, for two equal samples at full scale. -/
theorem polarDiscFast_eq_none
    {downsample : Nat}
    (many : 4 ≤ downsample)
    (within : downsample ≤ 255) :
    polarDiscFast (128 * downsample) (128 * downsample) (128 * downsample)
      (128 * downsample) = none := by
  have bound : (128 * (downsample : Int)).natAbs ≤ 128 * downsample := by omega
  have square : 4 * 4 ≤ downsample * downsample := Nat.mul_le_mul many many
  have real :
      128 * (downsample : Int) * (128 * downsample) +
          128 * downsample * (128 * downsample) =
        32768 * ((downsample * downsample : Nat) : Int) := by
    push_cast
    ring
  unfold polarDiscFast
  rw [multiplyConjugate_eq_some (by omega) bound bound bound bound, real, Int.sub_self]
  generalize downsample * downsample = squared at *
  change fastAtan2 0 (32768 * (squared : Int)) = none
  rw [Option.eq_none_iff_forall_ne_some]
  intro angle returned
  have fits := ((fastAtan2_eq_some_iff (by omega)).mp returned).2.2.2.1
  unfold CheckedInt.Fits octantDifference at fits
  rw [if_pos (by omega)] at fits
  omega

/-- Up to a factor of 16 the imaginary part can be scaled by 256. -/
theorem polarDiscLut_isSome
    {atanLut : Nat → Int}
    (table : AtanTable atanLut)
    {downsample : Nat}
    (few : downsample ≤ 16)
    {a b : Int × Int}
    (inBoxA : InBox downsample a)
    (inBoxB : InBox downsample b) :
    (polarDiscLut atanLut a.1 a.2 b.1 b.2).isSome := by
  have boundA := inBoxA.natAbs_le
  have boundB := inBoxB.natAbs_le
  have square : downsample * downsample ≤ 16 * 16 := Nat.mul_le_mul few few
  have imaginary := product_imaginary inBoxA inBoxB
  unfold polarDiscLut
  rw [multiplyConjugate_eq_some (by omega) boundA.1 boundA.2 boundB.1 boundB.2]
  generalize a.1 * b.1 + a.2 * b.2 = cr at *
  generalize a.2 * b.1 - a.1 * b.2 = cj at *
  change (lutAngle atanLut cr cj).isSome
  by_cases turned : cr = 0 ∧ cj = 0
  · rw [turned.1, turned.2]
    rfl
  · have shift : CheckedInt.Fits (cj * 256) := by
      unfold CheckedInt.Fits
      omega
    have ordinary : ¬ Extreme cr cj := by
      unfold Extreme
      omega
    obtain ⟨angle, returned, -⟩ := lutAngle_eq_some table turned shift ordinary
    rw [returned]
    rfl

/-- A product off the axes that cannot be shifted. -/
theorem lutAngle_of_large
    (atanLut : Nat → Int)
    {cr cj : Int}
    (right : cr ≠ 0)
    (large : ¬ CheckedInt.Fits (cj * 256)) :
    lutAngle atanLut cr cj = none := by
  have above : cj ≠ 0 := by
    rintro rfl
    exact large (by decide)
  unfold lutAngle CheckedInt.mul?
  simp only [right, above, false_and, if_false, CheckedInt.int?_of_not_fits large,
    Option.bind_eq_bind, Option.bind_none]

/-- From a factor of 17 on it cannot, for a large step. -/
theorem polarDiscLut_eq_none
    (atanLut : Nat → Int)
    {downsample : Nat}
    (many : 17 ≤ downsample)
    (within : downsample ≤ 255) :
    polarDiscLut atanLut (-127 * downsample) (128 * downsample) (128 * downsample)
      (128 * downsample) = none := by
  have bound : (128 * (downsample : Int)).natAbs ≤ 128 * downsample := by omega
  have boundAr : (-127 * (downsample : Int)).natAbs ≤ 128 * downsample := by omega
  have square : 17 * 17 ≤ downsample * downsample := Nat.mul_le_mul many many
  have real :
      -127 * (downsample : Int) * (128 * downsample) +
          128 * downsample * (128 * downsample) =
        128 * ((downsample * downsample : Nat) : Int) := by
    push_cast
    ring
  have imaginary :
      128 * (downsample : Int) * (128 * downsample) -
          -127 * downsample * (128 * downsample) =
        32640 * ((downsample * downsample : Nat) : Int) := by
    push_cast
    ring
  unfold polarDiscLut
  rw [multiplyConjugate_eq_some (by omega) boundAr bound bound bound, real, imaginary]
  generalize downsample * downsample = squared at *
  apply lutAngle_of_large
  · change 128 * (squared : Int) ≠ 0
    omega
  · change ¬ CheckedInt.Fits (32640 * (squared : Int) * 256)
    unfold CheckedInt.Fits
    omega

/-! ## Streams -/

theorem iqPairs_interleave
    {Value : Type}
    (pairs : List (Value × Value)) :
    iqPairs (interleave pairs) = pairs := by
  induction pairs with
  | nil =>
      rfl
  | cons pair rest inductionHypothesis =>
      change (pair.1, pair.2) :: iqPairs (interleave rest) = _
      rw [inductionHypothesis]

/-- Below 256 the samples are the sums of the groups. -/
theorem complexOutputs_eq
    (s : DongleState)
    {downsample : Nat}
    (least : 1 ≤ downsample)
    (most : downsample ≤ 255)
    {blocks : List Block}
    (even : ∀ block ∈ blocks, block.len % 2 = 0) :
    complexOutputs s downsample blocks = groupSums downsample (runSamples s blocks) ∧
      ∀ sample ∈ complexOutputs s downsample blocks, InBox downsample sample := by
  have boxes :
      ∀ sample ∈ groupSums downsample (runSamples s blocks), InBox downsample sample := by
    unfold groupSums
    rw [List.forall_mem_map]
    intro group member
    have length := StreamingGroups.length_of_mem_groupsOf member
    have inRange : InRange group :=
      InRange.ofSamples
        (fun _ inGroup => StreamingGroups.mem_of_mem_groupsOf member inGroup)
    have first := sum_bounds inRange.1
    have second := sum_bounds inRange.2
    rw [List.length_map, length, ← sum_fst] at first
    rw [List.length_map, length, ← sum_snd] at second
    exact ⟨⟨first.1, first.2.1⟩, ⟨second.1, second.2.1⟩⟩
  have exact :
      (filterBlocks s (initialDemod downsample) blocks).1.map Int16.toInt =
        interleave (groupSums downsample (runSamples s blocks)) := by
    rw [(filterBlocks_groups s (d := initialDemod downsample) ⟨rfl, rfl, rfl⟩ least
      even).1]
    refine (stored_exact_iff _).mpr ?_
    intro sample member
    obtain ⟨first, second⟩ := boxes sample member
    unfold Fits
    omega
  have same :
      complexOutputs s downsample blocks = groupSums downsample (runSamples s blocks) := by
    unfold complexOutputs
    rw [exact, iqPairs_interleave]
  rw [same]
  exact ⟨rfl, boxes⟩

/-- Two groups of samples: 128 throughout, but for I in the second group. -/
def twoGroups (downsample : Nat) (byte : UInt8) : Block where
  buf :=
    BoundedBuffer.blit 0
      (interleave
        (List.replicate downsample ((255 : UInt8), (255 : UInt8)) ++
          List.replicate downsample (byte, 255)))
      (fun _ => 0)
  len := 2 * (downsample + downsample)

theorem twoGroups_even
    (downsample : Nat)
    (byte : UInt8) :
    ∀ block ∈ [twoGroups downsample byte], block.len % 2 = 0 := by
  intro block member
  rw [List.mem_singleton.mp member]
  change 2 * (downsample + downsample) % 2 = 0
  omega

/-- Bytes in pairs are samples. -/
theorem samplesOf_interleave
    (pairs : List (UInt8 × UInt8)) :
    samplesOf (interleave pairs) =
      pairs.map (fun pair => (sampleValue pair.1, sampleValue pair.2)) := by
  induction pairs with
  | nil =>
      rfl
  | cons pair rest inductionHypothesis =>
      change (sampleValue pair.1, sampleValue pair.2) :: samplesOf (interleave rest) = _
      rw [inductionHypothesis]
      rfl

/-- The two samples that `low_pass` makes of them. -/
theorem complexOutputs_twoGroups
    {downsample : Nat}
    (least : 1 ≤ downsample)
    (most : downsample ≤ 255)
    (byte : UInt8) :
    complexOutputs ⟨true, 0⟩ downsample [twoGroups downsample byte] =
      [(128 * (downsample : Int), 128 * (downsample : Int)),
        (sampleValue byte * downsample, 128 * (downsample : Int))] := by
  have even := twoGroups_even downsample byte
  have high : sampleValue 255 = 128 := by decide
  have samples :
      runSamples ⟨true, 0⟩ [twoGroups downsample byte] =
        List.replicate downsample ((128 : Int), (128 : Int)) ++
          List.replicate downsample (sampleValue byte, 128) := by
    have bytes :=
      BoundedBuffer.window_blit_self 0
        (interleave
          (List.replicate downsample ((255 : UInt8), (255 : UInt8)) ++
            List.replicate downsample (byte, 255)))
        (fun _ => 0)
    have length :
        (interleave
          (List.replicate downsample ((255 : UInt8), (255 : UInt8)) ++
            List.replicate downsample (byte, 255))).length =
          2 * (downsample + downsample) := by
      simp [interleave]
      omega
    rw [length] at bytes
    unfold runSamples preparedBytes preparedBytes
    rw [preparedBuf_of_offsetTuning, List.flatten_cons, List.flatten_nil,
      List.append_nil]
    unfold twoGroups
    rw [bytes, samplesOf_interleave, List.map_append, List.map_replicate,
      List.map_replicate, high]
  have sum :
      ∀ i q : Int,
        (List.replicate downsample (i, q)).sum = (i * downsample, q * downsample) := by
    intro i q
    rw [List.sum_replicate]
    simp [Int.mul_comm]
  have single :
      ∀ group : List (Int × Int), group.length = downsample →
        StreamingGroups.groupsOf downsample group = [group] := by
    intro group length
    have appended := StreamingGroups.groupsOf_append least length []
    rw [List.append_nil] at appended
    rw [appended]
    simp [StreamingGroups.groupsOf]
  rw [(complexOutputs_eq ⟨true, 0⟩ least most even).1, samples]
  unfold groupSums
  rw [StreamingGroups.groupsOf_append least List.length_replicate,
    single _ List.length_replicate, List.map_cons, List.map_cons, List.map_nil, sum, sum]

/-- A method that has a result for all samples of the size. -/
theorem definedOnStreams_of_inBox
    {method : Int → Int → Int → Int → Option Int}
    {downsample : Nat}
    (least : 1 ≤ downsample)
    (most : downsample ≤ 255)
    (defined :
      ∀ a b, InBox downsample a → InBox downsample b →
        (method a.1 a.2 b.1 b.2).isSome) :
    DefinedOnStreams method downsample := by
  intro s blocks even pair member
  have boxes := (complexOutputs_eq s least most even).2
  obtain ⟨current, atStart | previous⟩ := ConsecutivePairs.mem_of_mem_pairs member
  · apply defined _ _ (boxes _ current)
    rw [atStart]
    constructor <;> simp only <;> omega
  · exact defined _ _ (boxes _ current) (boxes _ previous)

/-- A method that has none for the two samples. -/
theorem not_definedOnStreams
    {method : Int → Int → Int → Int → Option Int}
    {downsample : Nat}
    (least : 1 ≤ downsample)
    (most : downsample ≤ 255)
    (byte : UInt8)
    (undefined :
      method (sampleValue byte * downsample) (128 * downsample) (128 * downsample)
        (128 * downsample) = none) :
    ¬ DefinedOnStreams method downsample := by
  intro definedOnStreams
  have defined :=
    definedOnStreams ⟨true, 0⟩ [twoGroups downsample byte] (twoGroups_even downsample byte)
  rw [complexOutputs_twoGroups least most byte] at defined
  have second :=
    defined
      ((sampleValue byte * downsample, 128 * downsample),
        (128 * downsample, 128 * downsample))
      (List.mem_cons_of_mem _ List.mem_cons_self)
  rw [undefined] at second
  cases second

/--
Without passes: for which rates the methods have a result for all streams.  The factor
is at most 3 for `polar_disc_fast`, and at most 16 for `polar_disc_lut`.
-/
theorem definedOnStreams_rate_iff
    {atanLut : Nat → Int}
    (table : AtanTable atanLut)
    (freq : Int)
    {s : Settings}
    (noPasses : s.downsamplePasses = 0)
    (positive : 1 ≤ s.rateIn) :
    ∃ planned,
      optimalSettings freq s = some planned ∧
        planned.downsample = 1000000 / s.rateIn + 1 ∧
        (planned.downsample ≤ 255 →
          (DefinedOnStreams polarDiscFast planned.downsample.toNat ↔ 333334 ≤ s.rateIn) ∧
            (DefinedOnStreams (polarDiscLut atanLut) planned.downsample.toNat ↔
              62501 ≤ s.rateIn)) := by
  obtain ⟨rate, isRate⟩ := Int.eq_ofNat_of_zero_le (by omega : 0 ≤ s.rateIn)
  have ratePositive : 0 < rate := by omega
  obtain ⟨planned, done, -, factor, -⟩ :=
    optimalSettings_planned freq isRate ratePositive
  have downsample : planned.downsample.toNat = 1000000 / rate + 1 := by
    rw [factor]
    unfold plannedFactor
    rw [noPasses]
    rfl
  have quotient : ∀ count, 1000000 / rate < count ↔ 1000000 < count * rate :=
    fun count => Nat.div_lt_iff_lt_mul ratePositive
  have three := quotient 3
  have sixteen := quotient 16
  refine ⟨planned, done, ?_, ?_⟩
  · rw [factor]
    unfold plannedFactor
    rw [noPasses, isRate]
    norm_cast
  · intro within
    generalize 1000000 / rate = quotient at *
    rw [downsample]
    have high : sampleValue 255 = 128 := by decide
    have low : sampleValue 0 = -127 := by decide
    constructor
    · constructor
      · intro definedOnStreams
        by_contra slow
        refine not_definedOnStreams (by omega) (by omega) 255 ?_ definedOnStreams
        rw [high]
        exact polarDiscFast_eq_none (by omega) (by omega)
      · intro fast
        exact definedOnStreams_of_inBox (by omega) (by omega)
          (fun _ _ => polarDiscFast_isSome (by omega))
    · constructor
      · intro definedOnStreams
        by_contra slow
        refine not_definedOnStreams (by omega) (by omega) 0 ?_ definedOnStreams
        rw [low]
        exact polarDiscLut_eq_none atanLut (by omega) (by omega)
      · intro fast
        exact definedOnStreams_of_inBox (by omega) (by omega)
          (fun _ _ => polarDiscLut_isSome table (by omega))

/-- The preset for broadcast FM. -/
theorem definedOnStreams_rate_170k :
    ∃ planned,
      optimalSettings 100000000 (initialSettings 170000 0) = some planned ∧
        planned.downsample = 1000000 / 170000 + 1 ∧
        (planned.downsample ≤ 255 →
          (DefinedOnStreams polarDiscFast planned.downsample.toNat ↔
              333334 ≤ (170000 : Int)) ∧
            (DefinedOnStreams (polarDiscLut rampTable) planned.downsample.toNat ↔
              62501 ≤ (170000 : Int))) :=
  definedOnStreams_rate_iff rampTable_table 100000000 rfl (by decide)

/-- With that preset a constant full scale overflows. -/
theorem fullScale_overflows :
    ∃ planned,
      optimalSettings 100000000 (initialSettings 170000 0) = some planned ∧
        planned.downsample = 6 ∧
        ¬ DefinedOnStreams polarDiscFast planned.downsample.toNat := by
  have settings :
      optimalSettings 100000000 (initialSettings 170000 0) =
        some { initialSettings 170000 0 with
          downsample := 6
          outputScale := 1
          freq := 100255000
          rate := 1020000 } := by
    decide
  refine ⟨_, settings, rfl, ?_⟩
  exact not_definedOnStreams (by decide) (by decide) 255
    (polarDiscFast_eq_none (show 4 ≤ 6 by decide) (by decide))

end LibRtlSdr.RtlFm
