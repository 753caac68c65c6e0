import LibRtlSdr.RtlFmFifthOrder

namespace LibRtlSdr.RtlPower

/-!
# The half-band filter of `rtl_power`: `fifth_order`

The filter of `rtl_fm`, without a history: the first three outputs are written out, from
the first six samples, and a loop goes on from the values that these have left in the
variables.  The last of the six is the first that the loop reads, so it stands in the
variables twice, and the two outputs that see both are not those of `rtl_fm`.
-/

open RtlFm (Taps channel)

/-! ## Source -/

/-- The data and the variables of `fifth_order`. -/
structure FifthOrder where
  data : Nat → Int16
  taps : Taps

/-- `a` to `f` as they are loaded ahead of the first output. -/
def loadTaps (data : Nat → Int16) (base : Nat) : Taps where
  a := data base
  b := data (base + 2)
  c := data (base + 4)
  d := data (base + 6)
  e := data (base + 8)
  f := data (base + 10)

/-- `((a+b)*10 + (c+d)*5 + d + f) >> 4`. -/
def easeFirst (taps : Taps) : Int :=
  ((taps.a.toInt + taps.b.toInt) * 10 + (taps.c.toInt + taps.d.toInt) * 5 +
    taps.d.toInt + taps.f.toInt) >>> (4 : Nat)

/-- `((b+c)*10 + (a+d)*5 + e + f) >> 4`. -/
def easeSecond (taps : Taps) : Int :=
  ((taps.b.toInt + taps.c.toInt) * 10 + (taps.a.toInt + taps.d.toInt) * 5 +
    taps.e.toInt + taps.f.toInt) >>> (4 : Nat)

/-- The outputs ahead of the loop. -/
def easeIn (data : Nat → Int16) (base : Nat) : FifthOrder :=
  let taps := loadTaps data base
  let data := Function.update data base (Int16.ofInt (easeFirst taps))
  let data := Function.update data (base + 2) (Int16.ofInt (easeSecond taps))
  ⟨Function.update data (base + 4) (Int16.ofInt taps.weighted), taps⟩

/-- The turn of the loop at `i`. -/
def fifthOrderTurn (base : Nat) (s : FifthOrder) (i : Nat) : FifthOrder :=
  let taps : Taps :=
    { a := s.taps.c
      b := s.taps.d
      c := s.taps.e
      d := s.taps.f
      e := s.data (base + (i - 2))
      f := s.data (base + i) }
  ⟨Function.update s.data (base + i / 2) (Int16.ofInt taps.weighted), taps⟩

/-- `fifth_order` on the data from `base` on; `i` is 12, 16, ... below `length`. -/
def fifthOrder (data : Nat → Int16) (base length : Nat) : FifthOrder :=
  (List.range ((length - 9) / 4)).foldl
    (fun s turn => fifthOrderTurn base s (12 + 4 * turn)) (easeIn data base)

/-- `downsample_iq`. -/
def downsampleIq (data : Nat → Int16) (length : Nat) : Nat → Int16 :=
  (fifthOrder (fifthOrder data 0 length).data 1 (length - 1)).data

/-! ## One channel -/

/-- The variables behind a number of turns, from the samples of the channel. -/
def registers (x : Nat → Int16) : Nat → Taps
  | 0 =>
      { a := x 0, b := x 1, c := x 2, d := x 3, e := x 4, f := x 5 }
  | turn + 1 =>
      { a := (registers x turn).c
        b := (registers x turn).d
        c := (registers x turn).e
        d := (registers x turn).f
        e := x (2 * turn + 5)
        f := x (2 * turn + 6) }

/-- The samples of a channel by their place. -/
def samples (data : Nat → Int16) (base : Nat) : Nat → Int16 :=
  fun t => data (base + 2 * t)

/-- What a number of turns have made of a channel. -/
structure Eased
    (data : Nat → Int16)
    (base count : Nat)
    (s : FifthOrder) : Prop where
  taps : s.taps = registers (samples data base) count
  stored :
    ∀ turn < count,
      s.data (base + 2 * (turn + 3)) =
        Int16.ofInt (registers (samples data base) (turn + 1)).weighted
  kept :
    ∀ place, (∀ t < count + 3, place ≠ base + 2 * t) → s.data place = data place

/-- The outputs ahead of the loop. -/
theorem Eased.start
    (data : Nat → Int16)
    (base : Nat) :
    Eased data base 0 (easeIn data base) := by
  constructor
  · rfl
  · exact nofun
  · intro place elsewhere
    have first : place ≠ base := elsewhere 0 (by decide)
    have second := elsewhere 1 (by decide)
    have third := elsewhere 2 (by decide)
    unfold easeIn
    dsimp only
    rw [Function.update_of_ne third, Function.update_of_ne second,
      Function.update_of_ne first]

/-- A turn reads two samples that have not been written yet. -/
theorem Eased.turn
    {data : Nat → Int16}
    {base count : Nat}
    {s : FifthOrder}
    (eased : Eased data base count s) :
    Eased data base (count + 1) (fifthOrderTurn base s (12 + 4 * count)) := by
  have readOdd :
      s.data (base + (12 + 4 * count - 2)) = samples data base (2 * count + 5) := by
    rw [eased.kept _ (fun t below => by omega)]
    unfold samples
    congr 1
    omega
  have readEven :
      s.data (base + (12 + 4 * count)) = samples data base (2 * count + 6) := by
    rw [eased.kept _ (fun t below => by omega)]
    unfold samples
    congr 1
    omega
  have turned :
      fifthOrderTurn base s (12 + 4 * count) =
        ⟨Function.update s.data (base + 2 * (count + 3))
            (Int16.ofInt (registers (samples data base) (count + 1)).weighted),
          registers (samples data base) (count + 1)⟩ := by
    unfold fifthOrderTurn
    rw [readOdd, readEven, eased.taps,
      show (12 + 4 * count) / 2 = 2 * (count + 3) from by omega]
    rfl
  rw [turned]
  constructor
  · rfl
  · intro turn atMost
    dsimp only
    rcases Nat.lt_succ_iff_lt_or_eq.mp atMost with earlier | rfl
    · rw [Function.update_of_ne (by omega)]
      exact eased.stored turn earlier
    · rw [Function.update_self]
  · intro place elsewhere
    dsimp only
    rw [Function.update_of_ne (elsewhere (count + 3) (by omega))]
    exact eased.kept place (fun t below => elsewhere t (by omega))

/-- A call of `fifth_order`. -/
theorem fifthOrder_eased
    (data : Nat → Int16)
    (base length : Nat) :
    Eased data base ((length - 9) / 4) (fifthOrder data base length) := by
  unfold fifthOrder
  generalize (length - 9) / 4 = count
  induction count with
  | zero =>
      exact Eased.start data base
  | succ count inductionHypothesis =>
      rw [List.range_succ, List.foldl_append]
      exact inductionHypothesis.turn

/-! ## The weights -/

/-- `x[2k-5] + 5x[2k-4] + 10x[2k-3] + 10x[2k-2] + 5x[2k-1] + x[2k]`. -/
def weightedSum (x : Nat → Int16) (k : Nat) : Int :=
  (x (2 * k - 5)).toInt + 5 * (x (2 * k - 4)).toInt + 10 * (x (2 * k - 3)).toInt +
    10 * (x (2 * k - 2)).toInt + 5 * (x (2 * k - 1)).toInt + (x (2 * k)).toInt

/-- What the filter leaves at output `k`. -/
def halfBandAt (x : Nat → Int16) (k : Nat) : Int16 :=
  Int16.ofInt (weightedSum x k >>> (4 : Nat))

theorem weighted_eq
    (taps : Taps) :
    taps.weighted =
      (taps.a.toInt + 5 * taps.b.toInt + 10 * taps.c.toInt + 10 * taps.d.toInt +
        5 * taps.e.toInt + taps.f.toInt) >>> (4 : Nat) := by
  unfold Taps.weighted
  congr 1
  ring

/-- From the third turn on the variables hold the last six samples. -/
theorem registers_weighted
    (x : Nat → Int16)
    (turn : Nat) :
    Int16.ofInt (registers x (turn + 3)).weighted = halfBandAt x (turn + 5) := by
  rw [weighted_eq]
  rfl

/-- The error of output 3: sample 5 stands in the place of sample 4 as well. -/
def errorThird (x : Nat → Int16) : Int :=
  10 * (x 5).toInt - 5 * (x 3).toInt - 4 * (x 2).toInt - (x 1).toInt

/-- The error of output 4. -/
def errorFourth (x : Nat → Int16) : Int :=
  5 * (x 5).toInt - 4 * (x 4).toInt - (x 3).toInt

theorem registers_one
    (x : Nat → Int16) :
    (registers x 1).weighted = (weightedSum x 3 + errorThird x) >>> (4 : Nat) := by
  rw [weighted_eq]
  congr 1
  simp only [registers, weightedSum, errorThird, Nat.reduceMul, Nat.reduceSub,
    Nat.reduceAdd]
  ring

theorem registers_two
    (x : Nat → Int16) :
    (registers x 2).weighted = (weightedSum x 4 + errorFourth x) >>> (4 : Nat) := by
  rw [weighted_eq]
  congr 1
  simp only [registers, weightedSum, errorFourth, Nat.reduceMul, Nat.reduceSub,
    Nat.reduceAdd]
  ring

/-- An error stays in the four bits that are shifted out. -/
def Absorbed (sum error : Int) : Prop :=
  0 ≤ sum % 16 + error ∧ sum % 16 + error < 16

/-- An error that is not absorbed changes the stored value. -/
theorem ofInt_shiftRight_eq_iff
    {sum error : Int}
    (small : -655360 ≤ error ∧ error ≤ 655360) :
    Int16.ofInt ((sum + error) >>> (4 : Nat)) = Int16.ofInt (sum >>> (4 : Nat)) ↔
      Absorbed sum error := by
  rw [Int.shiftRight_eq_div_pow, Int.shiftRight_eq_div_pow, ← Int16.toInt_inj,
    Int16.toInt_ofInt, Int16.toInt_ofInt, Int.bmod_eq_bmod_iff_bmod_sub_eq_zero,
    ← Int.dvd_iff_bmod_eq_zero]
  unfold Absorbed
  simp only [Int16.size]
  omega

theorem errorThird_small
    (x : Nat → Int16) :
    -655360 ≤ errorThird x ∧ errorThird x ≤ 655360 := by
  have bounds := fun t => And.intro (x t).le_toInt (x t).toInt_lt
  have first := bounds 1
  have second := bounds 2
  have third := bounds 3
  have fifth := bounds 5
  unfold errorThird
  omega

theorem errorFourth_small
    (x : Nat → Int16) :
    -655360 ≤ errorFourth x ∧ errorFourth x ≤ 655360 := by
  have bounds := fun t => And.intro (x t).le_toInt (x t).toInt_lt
  have third := bounds 3
  have fourth := bounds 4
  have fifth := bounds 5
  unfold errorFourth
  omega

/-! ## The outputs -/

/-- The errors of the hand-over, where a block has these outputs. -/
def HandsOver (n : Nat) (x : Nat → Int16) : Prop :=
  (6 < n → Absorbed (weightedSum x 3) (errorThird x)) ∧
    (8 < n → Absorbed (weightedSum x 4) (errorFourth x))

/-- The outputs behind the first three. -/
theorem registers_iff
    (x : Nat → Int16)
    (n : Nat) :
    (∀ k, 3 ≤ k → 2 * k < n →
        Int16.ofInt (registers x (k - 2)).weighted = halfBandAt x k) ↔
      HandsOver n x := by
  have third := @ofInt_shiftRight_eq_iff (weightedSum x 3) _ (errorThird_small x)
  have fourth := @ofInt_shiftRight_eq_iff (weightedSum x 4) _ (errorFourth_small x)
  rw [← registers_one] at third
  rw [← registers_two] at fourth
  constructor
  · intro same
    exact ⟨fun longer => third.mp (same 3 (Nat.le_refl 3) longer),
      fun longer => fourth.mp (same 4 (by decide) longer)⟩
  · rintro ⟨atThird, atFourth⟩ k atLeast inside
    match k, atLeast with
    | 3, _ =>
        exact third.mpr (atThird inside)
    | 4, _ =>
        exact fourth.mpr (atFourth inside)
    | k + 5, _ =>
        exact registers_weighted x k

/-- Output `k` of a call that covers it. -/
theorem fifthOrder_output
    (data : Nat → Int16)
    {base length k : Nat}
    (atLeast : 3 ≤ k)
    (inside : 4 * k < length) :
    (fifthOrder data base length).data (base + 2 * k) =
      Int16.ofInt (registers (samples data base) (k - 2)).weighted := by
  have stored := (fifthOrder_eased data base length).stored (k - 3) (by omega)
  rw [show k - 3 + 3 = k from by omega, show k - 3 + 1 = k - 2 from by omega] at stored
  exact stored

/-- A call leaves the other channel. -/
theorem fifthOrder_kept
    (data : Nat → Int16)
    {base length place : Nat}
    (other : place % 2 ≠ base % 2) :
    (fifthOrder data base length).data place = data place :=
  (fifthOrder_eased data base length).kept place (fun t _ => by omega)

/-- Output `k` of the pass of `rtl_fm`, whatever its history. -/
theorem rtlFm_fifthOrder_output
    (data : Nat → Int16)
    {base length k : Nat}
    (hist : Taps)
    (atLeast : 3 ≤ k)
    (inside : 4 * k < length) :
    (RtlFm.fifthOrder data base length hist).data (base + 2 * k) =
      halfBandAt (samples data base) k := by
  rw [(RtlFm.fifthOrder_halved data base length hist).stored k (by omega)]
  obtain ⟨k, rfl⟩ : ∃ earlier, k = earlier + 3 := ⟨k - 3, by omega⟩
  rw [show 2 * (k + 3) + 1 = 2 * k + 1 + 1 + 1 + 1 + 1 + 1 + 1 from by omega]
  simp only [RtlFm.channel_succ, RtlFm.pushAll_append]
  rw [weighted_eq]
  rfl

/-- `downsample_iq` on `n` samples of both channels. -/
theorem downsampleIq_output
    (data : Nat → Int16)
    {n k : Nat}
    (atLeast : 3 ≤ k)
    (inside : 2 * k < n) :
    downsampleIq data (2 * n) (2 * k) =
        Int16.ofInt (registers (samples data 0) (k - 2)).weighted ∧
      downsampleIq data (2 * n) (1 + 2 * k) =
        Int16.ofInt (registers (samples data 1) (k - 2)).weighted := by
  have second : samples (fifthOrder data 0 (2 * n)).data 1 = samples data 1 := by
    funext t
    exact fifthOrder_kept data (by omega)
  have first := @fifthOrder_output data 0 (2 * n) k atLeast (by omega)
  rw [Nat.zero_add] at first
  unfold downsampleIq
  constructor
  · rw [fifthOrder_kept _ (by omega), first]
  · rw [fifthOrder_output _ atLeast (by omega), second]

/--
From output 3 on both channels are those of `rtl_fm` exactly when the errors of the
hand-over are absorbed; from output 5 on they always are.
-/
theorem downsampleIq_halfBand_iff
    (data : Nat → Int16)
    (n : Nat)
    (histI histQ : Taps) :
    (∀ k, 3 ≤ k → 2 * k < n →
        (downsampleIq data (2 * n) (2 * k) = halfBandAt (samples data 0) k ∧
          downsampleIq data (2 * n) (1 + 2 * k) = halfBandAt (samples data 1) k) ∧
        (RtlFm.fifthOrder data 0 (2 * n) histI).data (2 * k) =
            halfBandAt (samples data 0) k ∧
          (RtlFm.fifthOrder data 1 (2 * n - 1) histQ).data (1 + 2 * k) =
            halfBandAt (samples data 1) k) ↔
      HandsOver n (samples data 0) ∧ HandsOver n (samples data 1) := by
  rw [← registers_iff, ← registers_iff]
  constructor
  · intro same
    constructor
    · intro k atLeast inside
      exact (downsampleIq_output data atLeast inside).1.symm.trans
        (same k atLeast inside).1.1
    · intro k atLeast inside
      exact (downsampleIq_output data atLeast inside).2.symm.trans
        (same k atLeast inside).1.2
  · rintro ⟨first, second⟩ k atLeast inside
    obtain ⟨outputI, outputQ⟩ := downsampleIq_output data atLeast inside
    have passI := @rtlFm_fifthOrder_output data 0 (2 * n) k histI atLeast (by omega)
    rw [Nat.zero_add] at passI
    exact ⟨⟨outputI.trans (first k atLeast inside),
      outputQ.trans (second k atLeast inside)⟩,
      passI, rtlFm_fifthOrder_output data histQ atLeast (by omega)⟩

/-- A block of seven samples whose sixth is 16 in both channels. -/
def impulseBlock (place : Nat) : Int16 :=
  if place = 10 ∨ place = 11 then 16 else 0

/-- Output 3 weighs it with 15. -/
theorem downsampleIq_impulseBlock :
    downsampleIq impulseBlock (2 * 7) (2 * 3) = 15 ∧
      halfBandAt (samples impulseBlock 0) 3 = 5 := by
  decide

end LibRtlSdr.RtlPower
