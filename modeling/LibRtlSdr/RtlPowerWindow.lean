import LibRtlSdr.RtlPowerBoxcar
import LibRtlSdr.RtlPowerFftInt16
import LibRtlSdr.RtlPowerPlanCoverage
import LibRtlSdr.RtlPowerRemoveDc

namespace LibRtlSdr.RtlPower

/-!
# The window of `rtl_power`

In the default mode `scanner` takes a captured buffer through the boxcar filter and
`remove_dc`, and then frame by frame through the window and `fix_fft`.  What it adds up
of the results is left out here; what it forms in an `int` before an `int16_t` holds it
is recorded.
-/

/-! ## Source -/

/-- The buffer, and the products with window coefficients before they became an `int16_t`. -/
structure Windowing where
  fftBuf : Nat → Int16
  products : List Int

section Source

variable (sinewave : List Int16) (windowCoefs : Nat → Int)

/-- "prep for fft". -/
def prepared (buf8 : Nat → UInt8) (j : Nat) : Int16 :=
  Int16.ofInt ((buf8 j).toNat - 127)

/-- The body of the loop over `j`. -/
def windowTurn (offset : Nat) (s : Windowing) (j : Nat) : Windowing :=
  let re := (s.fftBuf (offset + j * 2)).toInt * windowCoefs j
  let first := Function.update s.fftBuf (offset + j * 2) (Int16.ofInt re)
  let im := (first (offset + j * 2 + 1)).toInt * windowCoefs j
  { fftBuf := Function.update first (offset + j * 2 + 1) (Int16.ofInt im)
    products := s.products ++ [re, im] }

/-- `fix_fft(fft_buf+offset, bin_e)`. -/
def fixFftAt (binE : Nat) (fftBuf : Nat → Int16) (offset : Nat) : Option (Nat → Int16) := do
  let result ←
    fixFft (int16Arithmetic truncated) sinewave binE
      (fun place => fftBuf (offset + place)) binE
  some fun place => if place < offset then fftBuf place else result.2 (place - offset)

/-- "window function and fft" at an offset. -/
def frameTurn (binE : Nat) (s : Windowing) (offset : Nat) : Option Windowing := do
  let windowed := (List.range (2 ^ binE)).foldl (windowTurn windowCoefs offset) s
  let fftBuf ← fixFftAt sinewave binE windowed.fftBuf offset
  some { windowed with fftBuf := fftBuf }

/-- The sums and the products of a hop, in the order in which they are formed. -/
structure Formed where
  sums : List Int
  products : List Int

/-- The boxcar filter, where the samples of more than one place make a group. -/
def filtered (fftBuf : Nat → Int16) (bufLen ds : Nat) : Boxcar :=
  if 1 < ds then boxcar fftBuf bufLen ds else ⟨fftBuf, 0, 0, []⟩

/-- A hop of `scanner` in the mode of the boxcar filter, where a plan has no passes. -/
def scanHop (tune : TuningState) (buf8 : Nat → UInt8) : Option Formed :=
  if 2 ^ tune.binE = 1 then
    -- `rms_power`
    some ⟨[], []⟩
  else if tune.downsample = 0 then
    -- `buf_len / ds`
    none
  else if tune.downsample < 0 then
    -- a negative length: the mean of nothing is 0, and there is no frame
    if tune.bufLen.tdiv tune.downsample = 0 then none else some ⟨[], []⟩
  else do
    let ds := tune.downsample.toNat
    let bufLen := tune.bufLen.toNat
    let gathered := filtered (prepared buf8) bufLen ds
    let balanced ← removeDcs gathered.fftBuf bufLen ds
    let s ←
      (frameOffsets bufLen ds (2 ^ tune.binE)).foldlM
        (frameTurn sinewave windowCoefs tune.binE) ⟨balanced, []⟩
    some ⟨gathered.assigned, s.products⟩

end Source

/-! ## The window -/

section Window

variable (windowCoefs : Nat → Int)

/-- The products of the turn at `j` of a frame. -/
def turnProducts (fftBuf : Nat → Int16) (offset j : Nat) : List Int :=
  [(fftBuf (offset + j * 2)).toInt * windowCoefs j,
    (fftBuf (offset + j * 2 + 1)).toInt * windowCoefs j]

/-- The products of a frame. -/
def frameProducts (binLen : Nat) (fftBuf : Nat → Int16) (offset : Nat) : List Int :=
  (List.range binLen).flatMap (turnProducts windowCoefs fftBuf offset)

/-- The window reads each value before it changes it. -/
theorem window_products
    (binLen offset : Nat)
    (s : Windowing) :
    ((List.range binLen).foldl (windowTurn windowCoefs offset) s).products =
        s.products ++ frameProducts windowCoefs binLen s.fftBuf offset ∧
      ∀ place, place < offset ∨ offset + binLen * 2 ≤ place →
        ((List.range binLen).foldl (windowTurn windowCoefs offset) s).fftBuf place =
          s.fftBuf place := by
  unfold frameProducts
  induction binLen with
  | zero =>
      simp
  | succ binLen inductionHypothesis =>
      obtain ⟨products, kept⟩ := inductionHypothesis
      rw [List.range_succ, List.foldl_append, List.foldl_cons, List.foldl_nil,
        List.flatMap_append, List.flatMap_singleton]
      constructor
      · simp only [windowTurn, turnProducts]
        rw [products, Function.update_of_ne (by omega), kept _ (.inr (by omega)),
          kept _ (.inr (by omega)), List.append_assoc]
      · intro place outside
        simp only [windowTurn]
        rw [Function.update_of_ne (by omega), Function.update_of_ne (by omega)]
        exact kept place (by omega)

end Window

/-! ## The frames -/

section Frames

variable (sinewave : List Int16) (windowCoefs : Nat → Int) {binE : Nat}

/-- The arithmetic of the machine has a factor for each sine and cosine. -/
theorem twiddle_truncated
    {index : Nat}
    (inTable : index + 2 ^ binE / 4 < sinewave.length) :
    ∃ w, twiddle (int16Arithmetic truncated) sinewave binE index = some w := by
  have inside : index < sinewave.length :=
    Nat.lt_of_le_of_lt (Nat.le_add_right _ _) inTable
  unfold twiddle
  rw [List.getElem?_eq_getElem inTable, List.getElem?_eq_getElem inside]
  exact ⟨_, rfl⟩

/-- `fix_fft` comes to its end, with a table of three quarters of a turn. -/
theorem fixFft_truncated
    (isTable : sinewave.length = 3 * 2 ^ binE / 4)
    (iq : Nat → Int16) :
    ∃ final,
      fixFft (int16Arithmetic truncated) sinewave binE iq binE = some (0, final) := by
  obtain ⟨final, result, _⟩ :=
    @fixFft_rule _ (int16Arithmetic truncated) sinewave binE binE (Nat.le_refl binE) iq
      (fun _ _ => True) (fun _ _ => trivial)
      (by
        intro s rest iq isStage _
        obtain ⟨next, result, _⟩ :=
          @stage_preserves _ (int16Arithmetic truncated) sinewave binE _ _ _
            (whole_of_stage isStage) (Nat.two_pow_pos rest) (binE - 1 - s)
            (fun _ => True) (fun _ => True)
            (by
              intro j below
              have inTable := quarter_add_lt (shifted_lt binE isStage below)
              rw [← isTable] at inTable
              obtain ⟨w, isTwiddle⟩ := twiddle_truncated sinewave inTable
              exact ⟨w, isTwiddle, fun _ _ _ _ => ⟨_, rfl, trivial, trivial⟩⟩)
            iq (fun _ _ => trivial)
        exact ⟨next, result, trivial⟩)
  exact ⟨final, result⟩

/-- The transform of a frame leaves what is behind it. -/
theorem fixFftAt_kept
    (isTable : sinewave.length = 3 * 2 ^ binE / 4)
    (fftBuf : Nat → Int16)
    (offset : Nat) :
    ∃ result,
      fixFftAt sinewave binE fftBuf offset = some result ∧
        ∀ place, offset + 2 * 2 ^ binE ≤ place → result place = fftBuf place := by
  obtain ⟨final, transforms⟩ :=
    fixFft_truncated sinewave isTable (fun place => fftBuf (offset + place))
  have kept := fixFft_kept (int16Arithmetic truncated) sinewave binE transforms
  refine
    ⟨fun place => if place < offset then fftBuf place else final (place - offset), ?_, ?_⟩
  · unfold fixFftAt
    rw [transforms]
    rfl
  intro place behind
  have isBehind : ¬ place < offset := by omega
  dsimp only
  rw [if_neg isBehind]
  have same := kept ((place - offset) / 2) (by omega)
  have back : offset + (place - offset) = place := by omega
  unfold cell at same
  dsimp only at same ⊢
  rw [Prod.mk.injEq] at same
  rcases Nat.mod_two_eq_zero_or_one (place - offset) with even | odd
  · have isFirst : 2 * ((place - offset) / 2) = place - offset := by omega
    rw [isFirst, back] at same
    exact same.1
  · have isSecond : 2 * ((place - offset) / 2) + 1 = place - offset := by omega
    rw [isSecond, back] at same
    exact same.2

/-- A frame, and what is behind it. -/
theorem frameTurn_products
    (isTable : sinewave.length = 3 * 2 ^ binE / 4)
    (s : Windowing)
    (offset : Nat) :
    ∃ next,
      frameTurn sinewave windowCoefs binE s offset = some next ∧
        next.products =
          s.products ++ frameProducts windowCoefs (2 ^ binE) s.fftBuf offset ∧
        ∀ place, offset + 2 * 2 ^ binE ≤ place → next.fftBuf place = s.fftBuf place := by
  obtain ⟨products, kept⟩ := window_products windowCoefs (2 ^ binE) offset s
  obtain ⟨transformed, transforms, behind⟩ :=
    fixFftAt_kept sinewave isTable
      ((List.range (2 ^ binE)).foldl (windowTurn windowCoefs offset) s).fftBuf offset
  refine
    ⟨⟨transformed,
        ((List.range (2 ^ binE)).foldl (windowTurn windowCoefs offset) s).products⟩,
      ?_, products, ?_⟩
  · unfold frameTurn
    dsimp only
    rw [transforms]
    rfl
  · intro place further
    rw [← kept place (.inr (by omega))]
    exact behind place further

/-- The products of all frames are those of the values from before the first. -/
theorem frames_products
    (isTable : sinewave.length = 3 * 2 ^ binE / 4)
    (fftBuf : Nat → Int16)
    (count start : Nat)
    {s : Windowing}
    (ahead : ∀ place, start ≤ place → s.fftBuf place = fftBuf place) :
    ∃ final,
      (List.range' start count (2 * 2 ^ binE)).foldlM
          (frameTurn sinewave windowCoefs binE) s =
          some final ∧
        final.products =
          s.products ++
            (List.range' start count (2 * 2 ^ binE)).flatMap
              (frameProducts windowCoefs (2 ^ binE) fftBuf) := by
  induction count generalizing start s with
  | zero =>
      exact ⟨s, rfl, (List.append_nil _).symm⟩
  | succ count inductionHypothesis =>
      obtain ⟨next, turn, products, behind⟩ :=
        frameTurn_products sinewave windowCoefs isTable s start
      have sameFrame :
          frameProducts windowCoefs (2 ^ binE) s.fftBuf start =
            frameProducts windowCoefs (2 ^ binE) fftBuf start := by
        unfold frameProducts
        congr 1
        funext j
        unfold turnProducts
        rw [ahead _ (by omega), ahead _ (by omega)]
      have nextAhead :
          ∀ place, start + 2 * 2 ^ binE ≤ place → next.fftBuf place = fftBuf place := by
        intro place further
        rw [behind place further, ahead place (by omega)]
      obtain ⟨final, frames, finalProducts⟩ := inductionHypothesis _ nextAhead
      refine ⟨final, ?_, ?_⟩
      · rw [List.range'_succ, List.foldlM_cons, turn]
        exact frames
      · rw [finalProducts, products, sameFrame, List.range'_succ, List.flatMap_cons,
          List.append_assoc]

end Frames

end LibRtlSdr.RtlPower
