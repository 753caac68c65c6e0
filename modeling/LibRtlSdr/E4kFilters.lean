import LibRtlSdr.E4kGain
import LibRtlSdr.FirstMinimum
import Mathlib.Order.Nat

namespace LibRtlSdr.E4k

open DriverProgram ByteChip FirstMinimum

/-!
# The filters of the E4000

The three IF filters have a table of bandwidths each, and a field in one of two
registers.  A bandwidth is set by the place of the entry that is closest to it; the
field is merged into a register that may hold the field of another filter.
-/

/-! ## Fields of registers -/

/-- `struct reg_field`. -/
structure RegField where
  reg : UInt8
  shift : UInt8
  width : Nat
  deriving Repr, DecidableEq

/-- `width2mask`. -/
def width2mask : List UInt8 :=
  [0, 1, 3, 7, 0xf, 0x1f, 0x3f, 0x7f, 0xff]

namespace RegField

/-- The mask of a field, at the low end of a byte. -/
def lowMask (field : RegField) : UInt8 :=
  width2mask.getD field.width 0

/-- The mask of a field in its register. -/
def mask (field : RegField) : UInt8 :=
  field.lowMask <<< field.shift

/-- The bits of a register that are of the field. -/
def bits (field : RegField) (reg : UInt8) : UInt8 :=
  if reg = field.reg then field.mask else 0

/-- The value of the field. -/
def value (field : RegField) (registers : UInt8 → UInt8) : UInt8 :=
  registers field.reg >>> field.shift &&& field.lowMask

end RegField

/-- `e4k_field_write`. -/
def fieldWrite (field : RegField) (val : UInt8) : Program Chip Int := do
  let rc ← regRead field.reg
  if rc < 0 then
    return rc
  else
    regSetMask field.reg field.mask (val <<< field.shift)

/-- `e4k_field_read`. -/
def fieldRead (field : RegField) : Program Chip Int := do
  let rc ← regRead field.reg
  if rc < 0 then
    return rc
  else
    return (UInt8.ofInt rc >>> field.shift &&& field.lowMask).toNat

/-! ## Closest entries -/

/-- `unsigned_delta`. -/
def unsignedDelta (a b : UInt32) : UInt32 :=
  if b < a then a - b else b - a

/-- `closest_arr_idx`. -/
def closestArrIdx (arr : List UInt32) (freq : UInt32) : Nat :=
  firstMinimum (fun entry => (unsignedDelta freq entry).toNat) 0xffffffff arr

/-- An entry of a table with the least distance to a value. -/
def Closest (table : List UInt32) (value entry : UInt32) : Prop :=
  entry ∈ table ∧
    ∀ other ∈ table,
      ((value.toNat : Int) - entry.toNat).natAbs ≤
        ((value.toNat : Int) - other.toNat).natAbs

theorem unsignedDelta_toNat
    (a b : UInt32) :
    (unsignedDelta a b).toNat = ((a.toNat : Int) - b.toNat).natAbs := by
  unfold unsignedDelta
  split
  · have less : b.toNat < a.toNat :=
      UInt32.lt_iff_toNat_lt.mp ‹_›
    rw [UInt32.toNat_sub_of_le _ _ (UInt32.le_iff_toNat_le.mpr (Nat.le_of_lt less))]
    omega
  · have notLess : a.toNat ≤ b.toNat :=
      UInt32.le_iff_toNat_le.mp (UInt32.not_lt.mp ‹_›)
    rw [UInt32.toNat_sub_of_le _ _ (UInt32.le_iff_toNat_le.mpr notLess)]
    omega

/-- The place that is found is one of the table, with a closest entry. -/
theorem closestArrIdx_closest
    {arr : List UInt32}
    (nonempty : arr ≠ [])
    (freq : UInt32) :
    ∃ entry,
      arr[closestArrIdx arr freq]? = some entry ∧ Closest arr freq entry := by
  have bounded : ∀ entry, (unsignedDelta freq entry).toNat ≤ 0xffffffff :=
    fun entry => Nat.le_of_lt_succ (unsignedDelta freq entry).toNat_lt
  obtain ⟨entry, place, minimal⟩ := firstMinimum_least bounded nonempty
  refine ⟨entry, place, List.mem_of_getElem? place, fun other member => ?_⟩
  rw [← unsignedDelta_toNat, ← unsignedDelta_toNat]
  exact minimal other member

/-! ## The filters -/

/-- `enum e4k_if_filter`. -/
inductive IfFilter where
  | mix
  | chan
  | rc
  deriving Repr, DecidableEq

/-- `KHZ`. -/
def kHz (x : UInt32) : UInt32 :=
  x * 1000

/-- `if_filter_bw`. -/
def ifFilterBw : IfFilter → List UInt32
  | .mix =>
      [kHz 27000, kHz 27000, kHz 27000, kHz 27000,
        kHz 27000, kHz 27000, kHz 27000, kHz 27000,
        kHz 4600, kHz 4200, kHz 3800, kHz 3400,
        kHz 3300, kHz 2700, kHz 2300, kHz 1900]
  | .chan =>
      [kHz 5500, kHz 5300, kHz 5000, kHz 4800,
        kHz 4600, kHz 4400, kHz 4300, kHz 4100,
        kHz 3900, kHz 3800, kHz 3700, kHz 3600,
        kHz 3400, kHz 3300, kHz 3200, kHz 3100,
        kHz 3000, kHz 2950, kHz 2900, kHz 2800,
        kHz 2750, kHz 2700, kHz 2600, kHz 2550,
        kHz 2500, kHz 2450, kHz 2400, kHz 2300,
        kHz 2280, kHz 2240, kHz 2200, kHz 2150]
  | .rc =>
      [kHz 21400, kHz 21000, kHz 17600, kHz 14700,
        kHz 12400, kHz 10600, kHz 9000, kHz 7700,
        kHz 6400, kHz 5300, kHz 4400, kHz 3400,
        kHz 2600, kHz 1800, kHz 1200, kHz 1000]

/-- `if_filter_fields`; 0x11 is `E4K_REG_FILT2` and 0x12 `E4K_REG_FILT3`. -/
def ifFilterField : IfFilter → RegField
  | .mix => ⟨0x11, 4, 4⟩
  | .chan => ⟨0x12, 0, 5⟩
  | .rc => ⟨0x11, 0, 4⟩

/-- `e4k_if_filter_bw_set`. -/
def ifFilterBwSet (filter : IfFilter) (bandwidth : UInt32) : Program Chip Int :=
  fieldWrite (ifFilterField filter)
    (UInt8.ofNat (closestArrIdx (ifFilterBw filter) bandwidth))

/-- `e4k_if_filter_bw_get`. -/
def ifFilterBwGet (filter : IfFilter) : Program Chip Int := do
  let rc ← fieldRead (ifFilterField filter)
  if rc < 0 then
    return rc
  else
    return ((ifFilterBw filter).getD rc.toNat 0).toNat

/-- `e4k_if_filter_chan_enable`; 0x20 is `E4K_FILT3_DISABLE`. -/
def ifFilterChanEnable (on : Bool) : Program Chip Int :=
  regSetMask 0x12 0x20 (if on then 0 else 0x20)

/-- The bandwidth of filters in some order, with the results combined. -/
def setFilters (order : List IfFilter) (bandwidth : UInt32) : Program Chip Int32 :=
  orAll (order.map fun filter => Int32.ofInt <$> ifFilterBwSet filter bandwidth)

/-- `e4000_set_bw`. -/
def setBw (bw : Int32) : Program Chip Int32 :=
  setFilters [.mix, .rc, .chan] bw.toUInt32

/-! ## What the fields hold -/

section Fields

variable {registers : UInt8 → UInt8} {before : Chip}

theorem fieldWrite_merged
    (holds : before.Holds registers)
    (field : RegField)
    (val : UInt8) :
    Returns (fieldWrite field val) before 0
      (Chip.Holds (merged registers field.reg field.mask (val <<< field.shift))) := by
  apply (regRead_returns holds field.reg).bind
  intro middle holds
  rw [if_neg (by omega)]
  exact regSetMask_merged holds _ _ _

theorem fieldRead_value
    (holds : before.Holds registers)
    (field : RegField) :
    Returns (fieldRead field) before (field.value registers).toNat
      (Chip.Holds registers) := by
  apply (regRead_returns holds field.reg).bind
  intro middle holds
  rw [if_neg (by omega), ofInt_toNat]
  exact Returns.pure holds

end Fields

/-! ## A filter and the others -/

section Filters

variable {registers : UInt8 → UInt8} {before : Chip}

/-- What is merged stays within the mask. -/
theorem merged_outside
    (registers : UInt8 → UInt8)
    (reg mask val other : UInt8) :
    merged registers reg mask val other &&& ~~~(if other = reg then mask else 0) =
      registers other &&& ~~~(if other = reg then mask else 0) := by
  unfold merged
  by_cases same : other = reg
  · subst same
    rw [Function.update_self, if_pos rfl, ← UInt8.toBitVec_inj]
    simp only [UInt8.toBitVec_and, UInt8.toBitVec_or, UInt8.toBitVec_not]
    apply MaskedWrites.merge_and_of_disjoint
    exact BitVec.and_not_self _
  · rw [Function.update_of_ne same]

/-- A field of a filter is what the register has under its mask. -/
theorem value_eq_masked
    (filter : IfFilter)
    (registers : UInt8 → UInt8) :
    (ifFilterField filter).value registers =
      (registers (ifFilterField filter).reg &&& (ifFilterField filter).mask) >>>
        (ifFilterField filter).shift := by
  have bytes :
      ∀ byte < 256,
        UInt8.ofNat byte >>> (ifFilterField filter).shift &&&
            (ifFilterField filter).lowMask =
          (UInt8.ofNat byte &&& (ifFilterField filter).mask) >>>
            (ifFilterField filter).shift := by
    cases filter <;>
      decide +kernel
  have byte := bytes _ (registers (ifFilterField filter).reg).toNat_lt
  rw [UInt8.ofNat_toNat] at byte
  exact byte

/-- A place of the table is read as it is merged. -/
theorem value_merged
    {filter : IfFilter}
    {index : Nat}
    (inTable : index < (ifFilterBw filter).length) :
    (ifFilterField filter).value
        (merged registers (ifFilterField filter).reg (ifFilterField filter).mask
          (UInt8.ofNat index <<< (ifFilterField filter).shift)) =
      UInt8.ofNat index := by
  have codes :
      ∀ filter, ∀ index < (ifFilterBw filter).length,
        (UInt8.ofNat index <<< (ifFilterField filter).shift &&&
            (ifFilterField filter).mask) >>> (ifFilterField filter).shift =
          UInt8.ofNat index := by
    intro filter
    cases filter <;>
      decide
  rw [value_eq_masked]
  unfold merged
  rw [Function.update_self, field_and_mask]
  exact codes filter index inTable

theorem or_and_eq_zero
    {first second kept : UInt8}
    (apart : first &&& kept = 0)
    (apartThen : second &&& kept = 0) :
    (first ||| second) &&& kept = 0 := by
  rw [← UInt8.toBitVec_inj] at *
  simp only [UInt8.toBitVec_and, UInt8.toBitVec_or] at *
  rw [BitVec.and_or_distrib_right, apart, apartThen]
  rfl

theorem and_not_or
    (byte first second : UInt8) :
    byte &&& ~~~(first ||| second) = byte &&& ~~~first &&& ~~~second := by
  rw [← UInt8.toBitVec_inj]
  simp only [UInt8.toBitVec_and, UInt8.toBitVec_or, UInt8.toBitVec_not]
  rw [BitVec.not_or, BitVec.and_assoc]

/-- What two changes in a row leave alone are the bits that neither of them has. -/
theorem and_not_or_trans
    {first second old middle new : UInt8}
    (kept : middle &&& ~~~first = old &&& ~~~first)
    (keptThen : new &&& ~~~second = middle &&& ~~~second) :
    new &&& ~~~(first ||| second) = old &&& ~~~(first ||| second) := by
  have swapped :
      ∀ byte : UInt8,
        byte &&& ~~~(first ||| second) = byte &&& ~~~second &&& ~~~first := by
    intro byte
    rw [UInt8.or_comm, and_not_or]
  rw [swapped, keptThen, ← swapped, and_not_or, kept, ← and_not_or]

/-- Bits that are apart from those of a change are kept by it. -/
theorem and_of_unchanged
    {old new changed kept : UInt8}
    (outside : new &&& ~~~changed = old &&& ~~~changed)
    (apart : changed &&& kept = 0) :
    new &&& kept = old &&& kept := by
  have within : ∀ byte : UInt8, byte &&& kept = byte &&& ~~~changed &&& kept := by
    intro byte
    have cleared : ~~~changed &&& kept = kept := by
      have whole := and_not_or_and kept changed
      rw [UInt8.and_comm kept changed, apart, UInt8.or_zero] at whole
      rw [UInt8.and_comm, whole]
    rw [UInt8.and_assoc, cleared]
  rw [within, outside, ← within]

/-- The value of a filter stays, when its bits do. -/
theorem value_of_unchanged
    {filter : IfFilter}
    {later changed : UInt8 → UInt8}
    (outside : ∀ reg, later reg &&& ~~~changed reg = registers reg &&& ~~~changed reg)
    (apart :
      changed (ifFilterField filter).reg &&& (ifFilterField filter).mask = 0) :
    (ifFilterField filter).value later = (ifFilterField filter).value registers := by
  rw [value_eq_masked, value_eq_masked, and_of_unchanged (outside _) apart]

/-- The filter is at an entry of its table that is closest to a bandwidth. -/
def AtClosest
    (filter : IfFilter)
    (bandwidth : UInt32)
    (registers : UInt8 → UInt8) : Prop :=
  ∃ entry,
    (ifFilterBw filter)[((ifFilterField filter).value registers).toNat]? =
        some entry ∧
      Closest (ifFilterBw filter) bandwidth entry

/-- The bits of some filters in a register. -/
def filterBits (order : List IfFilter) (reg : UInt8) : UInt8 :=
  order.foldr (fun filter bits => (ifFilterField filter).bits reg ||| bits) 0

/-- No two filters share a bit. -/
theorem filterBits_apart
    {filter : IfFilter}
    {order : List IfFilter}
    (other : filter ∉ order) :
    filterBits order (ifFilterField filter).reg &&& (ifFilterField filter).mask = 0 := by
  have pairs :
      ∀ second, second ≠ filter →
        (ifFilterField second).bits (ifFilterField filter).reg &&&
          (ifFilterField filter).mask = 0 := by
    intro second differs
    cases second <;> cases filter <;>
      first
      | exact absurd rfl differs
      | decide
  induction order with
  | nil =>
      exact UInt8.zero_and
  | cons first rest inductionHypothesis =>
      have notFirst : first ≠ filter :=
        (List.ne_of_not_mem_cons other).symm
      have notRest := inductionHypothesis (List.not_mem_of_not_mem_cons other)
      exact or_and_eq_zero (pairs first notFirst) notRest

/-- The registers when a filter is set. -/
def filtered
    (filter : IfFilter)
    (bandwidth : UInt32)
    (registers : UInt8 → UInt8) : UInt8 → UInt8 :=
  merged registers (ifFilterField filter).reg (ifFilterField filter).mask
    (UInt8.ofNat (closestArrIdx (ifFilterBw filter) bandwidth) <<<
      (ifFilterField filter).shift)

theorem filtered_atClosest
    (filter : IfFilter)
    (bandwidth : UInt32)
    (registers : UInt8 → UInt8) :
    AtClosest filter bandwidth (filtered filter bandwidth registers) := by
  have sizes :
      ifFilterBw filter ≠ [] ∧ (ifFilterBw filter).length ≤ 32 := by
    cases filter <;>
      decide
  obtain ⟨entry, place, closest⟩ := closestArrIdx_closest sizes.1 bandwidth
  obtain ⟨inTable, _⟩ := List.getElem?_eq_some_iff.mp place
  refine ⟨entry, ?_, closest⟩
  unfold filtered
  rw [value_merged inTable, UInt8.toNat_ofNat', Nat.mod_eq_of_lt (by omega)]
  exact place

theorem ifFilterBwSet_filtered
    (holds : before.Holds registers)
    (filter : IfFilter)
    (bandwidth : UInt32) :
    Returns (ifFilterBwSet filter bandwidth) before 0
      (Chip.Holds (filtered filter bandwidth registers)) :=
  fieldWrite_merged holds _ _

/-- The bandwidth of a filter is read back from its field. -/
theorem ifFilterBwGet_returns
    (holds : before.Holds registers)
    {filter : IfFilter}
    {entry : UInt32}
    (place :
      (ifFilterBw filter)[((ifFilterField filter).value registers).toNat]? =
        some entry) :
    Returns (ifFilterBwGet filter) before entry.toNat (Chip.Holds registers) := by
  apply (fieldRead_value holds (ifFilterField filter)).bind
  intro after holds
  rw [if_neg (by omega), Int.toNat_natCast, List.getD_eq_getElem?_getD, place]
  exact Returns.pure holds

/-- What the filters of an order are set to, and what is left alone. -/
def Filtered
    (order : List IfFilter)
    (bandwidth : UInt32)
    (registers later : UInt8 → UInt8) : Prop :=
  (∀ filter ∈ order, AtClosest filter bandwidth later) ∧
    ∀ reg,
      later reg &&& ~~~filterBits order reg =
        registers reg &&& ~~~filterBits order reg

/-- One filter more is set, and keeps its value while others are set. -/
theorem Filtered.cons
    {filter : IfFilter}
    {rest : List IfFilter}
    {bandwidth : UInt32}
    {later : UInt8 → UInt8}
    (others : Filtered rest bandwidth (filtered filter bandwidth registers) later) :
    Filtered (filter :: rest) bandwidth registers later := by
  obtain ⟨closest, outside⟩ := others
  constructor
  · intro found member
    by_cases inRest : found ∈ rest
    · exact closest found inRest
    · have isFilter : found = filter :=
        (List.mem_cons.mp member).resolve_right inRest
      subst isFilter
      unfold AtClosest
      rw [value_of_unchanged outside (filterBits_apart inRest)]
      exact filtered_atClosest found bandwidth registers
  · intro reg
    have own :
        filtered filter bandwidth registers reg &&& ~~~(ifFilterField filter).bits reg =
          registers reg &&& ~~~(ifFilterField filter).bits reg :=
      merged_outside registers _ _ _ reg
    exact and_not_or_trans own (outside reg)

/-- Filters are set in any order. -/
theorem setFilters_filtered
    (holds : before.Holds registers)
    (order : List IfFilter)
    (bandwidth : UInt32) :
    Returns (setFilters order bandwidth) before 0 (fun after =>
      ∃ later, after.Holds later ∧ Filtered order bandwidth registers later) := by
  induction order generalizing registers before with
  | nil =>
      exact Returns.orAllNil ⟨registers, holds, by simp, fun _ => rfl⟩
  | cons filter rest inductionHypothesis =>
      have sets :
          Returns (Int32.ofInt <$> ifFilterBwSet filter bandwidth) before 0
            (Chip.Holds (filtered filter bandwidth registers)) := by
        obtain ⟨middle, yields, holds⟩ :=
          ifFilterBwSet_filtered holds filter bandwidth
        exact ⟨middle, yields_map.mpr ⟨0, yields, rfl⟩, holds⟩
      apply sets.orAllCons
      intro middle holds
      apply (inductionHypothesis holds).mono
      rintro after ⟨later, holds, others⟩
      exact ⟨later, holds, others.cons⟩

/-- A filter reads back an entry of its table that is closest to a bandwidth. -/
def ReadsClosest (filter : IfFilter) (bandwidth : UInt32) (chip : Chip) : Prop :=
  ∃ entry,
    Closest (ifFilterBw filter) bandwidth entry ∧
      Returns (ifFilterBwGet filter) chip entry.toNat
        (fun after => after.registers = chip.registers)

theorem AtClosest.reads
    {filter : IfFilter}
    {bandwidth : UInt32}
    (atClosest : AtClosest filter bandwidth registers)
    (holds : before.Holds registers) :
    ReadsClosest filter bandwidth before := by
  obtain ⟨entry, place, closest⟩ := atClosest
  refine ⟨entry, closest, (ifFilterBwGet_returns holds place).mono ?_⟩
  intro after holdsStill
  rw [holdsStill.registers, holds.registers]

/--
Whatever an honest and answering chip holds: a filter that is set reads back an
entry closest to the bandwidth, and no bit outside of its field has changed.  So do
all filters of an order, and with it those that the library sets.
-/
theorem ifFilterBwSet_readsClosest
    (holds : before.Holds registers)
    (bandwidth : UInt32) :
    (∀ filter,
      Returns (ifFilterBwSet filter bandwidth) before 0 (fun after =>
        ReadsClosest filter bandwidth after ∧
          ∀ reg,
            after.registers reg &&& ~~~(ifFilterField filter).bits reg =
              registers reg &&& ~~~(ifFilterField filter).bits reg)) ∧
    (∀ order : List IfFilter,
      Returns (setFilters order bandwidth) before 0 (fun after =>
        (∀ filter ∈ order, ReadsClosest filter bandwidth after) ∧
          ∀ reg,
            after.registers reg &&& ~~~filterBits order reg =
              registers reg &&& ~~~filterBits order reg)) ∧
    ∀ bw : Int32,
      Returns (setBw bw) before 0 (fun after =>
        ∀ filter, ReadsClosest filter bw.toUInt32 after) := by
  refine ⟨fun filter => ?_, fun order => ?_, fun bw => ?_⟩
  · apply (ifFilterBwSet_filtered holds filter bandwidth).mono
    intro after holds
    refine ⟨(filtered_atClosest filter bandwidth registers).reads holds, ?_⟩
    rw [holds.registers]
    exact merged_outside registers _ _ _
  · apply (setFilters_filtered holds order bandwidth).mono
    rintro after ⟨later, holds, closest, outside⟩
    refine ⟨fun filter member => (closest filter member).reads holds, ?_⟩
    rw [holds.registers]
    exact outside
  · apply (setFilters_filtered holds [.mix, .rc, .chan] bw.toUInt32).mono
    rintro after ⟨later, holds, closest, _⟩ filter
    have member : filter ∈ [IfFilter.mix, .rc, .chan] := by
      cases filter <;>
        decide
    exact (closest filter member).reads holds

/-- A cleared chip has its filters set to 2 MHz. -/
theorem ifFilterBwSet_readsClosest_cleared :
    Returns (setBw 2000000) Chip.cleared 0 (fun after =>
      ∀ filter, ReadsClosest filter 2000000 after) :=
  (ifFilterBwSet_readsClosest
    (⟨Chip.cleared_answering, fun _ _ _ => rfl, rfl⟩ :
      Chip.cleared.Holds fun _ => 0) 2000000).2.2 2000000

end Filters

end LibRtlSdr.E4k
