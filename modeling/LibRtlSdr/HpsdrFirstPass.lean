import LibRtlSdr.HpsdrDownsample
import LibRtlSdr.PartialRun

namespace LibRtlSdr.Hpsdr

/-!
# From the dongle into the first pass

`rtlsdr_callback` converts a dongle buffer to floats, removes the DC component
and stores the pairs in `iq_buf`; `down_loop (rcb, 1)` filters them with 16 taps.
The buffer has room for 16 pairs more than the dongle delivers.  Nothing but the
callback and the `memmove` of `down_loop` writes it, and it is not cleared when
it is allocated: a cell that was never written has no value here.
-/

open BoundedBuffer (window)

/-- `iq_buf`, the DC state of the receiver, and the samples stored so far. -/
structure DongleState (R : Type) where
  iqBuf : Nat → Option R
  dcILast : R
  dcQLast : R
  samples : List (R × R)

section Callback

variable
  {R : Type}
  [CommRing R]
  (rtlLut : UInt8 → R)
  (decay : R)

/-- Before the first buffer nothing was written. -/
def DongleState.initial : DongleState R where
  iqBuf := fun _ => none
  dcILast := 0
  dcQLast := 0
  samples := []

/-- The body of the loop of `rtlsdr_callback`, for `i = 2 * turn`. -/
def storeSample
    (buf : Nat → UInt8)
    (state : DongleState R)
    (turn : Nat) :
    DongleState R :=
  let i := 2 * turn
  let dcI := rtlLut (buf i) + state.dcILast * decay
  let dcQ := rtlLut (buf (i + 1)) + state.dcQLast * decay
  { iqBuf :=
      Function.update
        (Function.update state.iqBuf i (some (dcI - state.dcILast)))
        (i + 1) (some (dcQ - state.dcQLast))
    dcILast := dcI
    dcQLast := dcQ
    samples :=
      state.samples ++ [(dcI - state.dcILast, dcQ - state.dcQLast)] }

/-- `rtlsdr_callback` stores a buffer of `RTL_READ_COUNT` bytes. -/
def rtlsdrCallback
    (state : DongleState R)
    (buf : Nat → UInt8) :
    DongleState R :=
  (List.range (rtlReadCount / 2)).foldl (storeSample rtlLut decay buf) state

/-- A buffer is stored and `down_loop (rcb, 1)` moves its tail to the front. -/
def firstPassStep
    (state : DongleState R)
    (buf : Nat → UInt8) :
    Option (DongleState R) :=
  let stored := rtlsdrCallback rtlLut decay state buf
  some { stored with iqBuf := moveTail firstPass stored.iqBuf }

/-- The cells of a list of pairs. -/
def pairCells {R : Type} (pairs : List (R × R)) : List (Option R) :=
  pairs.flatMap (fun pair => [some pair.1, some pair.2])

/-- Window `turn` of the first pass is 16 consecutive samples, zeros before the first. -/
def WindowFollows (state : DongleState R) (turn : Nat) : Prop :=
  ∃ start,
    window state.iqBuf (2 * turn) (firstPass.coeffLen * 2) =
      pairCells
        (((List.replicate 16 (0, 0) ++ state.samples).drop start).take 16)

/-- All windows that the first pass filters do so once `buf` is stored. -/
def WindowsFollow
    (state : DongleState R)
    (buf : Nat → UInt8) : Prop :=
  ∀ turn < firstPass.count / 2,
    WindowFollows (rtlsdrCallback rtlLut decay state buf) turn

/-! ## What a call reads -/

/-- The cells behind the dongle's part of the buffer were never written. -/
def TailUnwritten (state : DongleState R) : Prop :=
  ∀ index, rtlReadCount ≤ index → state.iqBuf index = none

/-- A turn writes two cells. -/
theorem storeSample_iqBuf_of_ne
    (buf : Nat → UInt8)
    (state : DongleState R)
    {turn index : Nat}
    (notFirst : index ≠ 2 * turn)
    (notSecond : index ≠ 2 * turn + 1) :
    (storeSample rtlLut decay buf state turn).iqBuf index =
      state.iqBuf index := by
  simp only [storeSample, Function.update_of_ne notSecond,
    Function.update_of_ne notFirst]

/-- The first `turns` turns store as many pairs in front and leave the rest alone. -/
theorem foldl_storeSample
    (buf : Nat → UInt8)
    (state : DongleState R)
    (turns : Nat) :
    ∃ fresh : List (R × R),
      let stored :=
        (List.range turns).foldl (storeSample rtlLut decay buf) state
      fresh.length = turns ∧
        stored.samples = state.samples ++ fresh ∧
        (∀ k (below : k < fresh.length),
          stored.iqBuf (2 * k) = some fresh[k].1 ∧
            stored.iqBuf (2 * k + 1) = some fresh[k].2) ∧
        ∀ index, 2 * turns ≤ index →
          stored.iqBuf index = state.iqBuf index := by
  induction turns with
  | zero =>
      exact ⟨[], rfl, (List.append_nil _).symm,
        fun k below => absurd below (Nat.not_lt_zero k), fun _ _ => rfl⟩
  | succ turns inductionHypothesis =>
      obtain ⟨fresh, length, samples, cells, others⟩ := inductionHypothesis
      rw [List.range_succ, List.foldl_append, List.foldl_cons,
        List.foldl_nil]
      generalize
        (List.range turns).foldl (storeSample rtlLut decay buf) state =
          middle at samples cells others
      refine ⟨fresh ++
        [(rtlLut (buf (2 * turns)) + middle.dcILast * decay -
            middle.dcILast,
          rtlLut (buf (2 * turns + 1)) + middle.dcQLast * decay -
            middle.dcQLast)], ?_, ?_, ?_, ?_⟩
      · rw [List.length_append, length, List.length_singleton]
      · simp only [storeSample, samples, List.append_assoc]
      · intro k below
        rw [List.length_append, List.length_singleton] at below
        by_cases earlier : k < fresh.length
        · obtain ⟨first, second⟩ := cells k earlier
          rw [List.getElem_append_left earlier]
          constructor
          · rw [storeSample_iqBuf_of_ne _ _ _ _ (by omega) (by omega),
              first]
          · rw [storeSample_iqBuf_of_ne _ _ _ _ (by omega) (by omega),
              second]
        · have isLast : k = turns := by omega
          subst isLast
          simp [storeSample, length]
      · intro index beyond
        rw [storeSample_iqBuf_of_ne _ _ _ _ (by omega) (by omega),
          others index (by omega)]

omit [CommRing R] in
/-- Cells that hold pairs one after the other are a window of these pairs. -/
theorem window_eq_pairCells
    {buf : Nat → Option R}
    {pairs : List (R × R)}
    {start : Nat}
    (cells :
      ∀ k (below : k < pairs.length),
        buf (2 * (start + k)) = some pairs[k].1 ∧
          buf (2 * (start + k) + 1) = some pairs[k].2) :
    window buf (2 * start) (pairs.length * 2) = pairCells pairs := by
  induction pairs generalizing start with
  | nil =>
      rfl
  | cons pair rest inductionHypothesis =>
      have lengths : (pair :: rest).length * 2 = 2 + rest.length * 2 := by
        rw [List.length_cons]
        omega
      have next : 2 * start + 2 = 2 * (start + 1) := by omega
      obtain ⟨first, second⟩ := cells 0 (Nat.zero_lt_succ _)
      have restCells :
          window buf (2 * (start + 1)) (rest.length * 2) =
            pairCells rest := by
        apply inductionHypothesis
        intro k below
        have shifted := cells (k + 1) (Nat.succ_lt_succ below)
        rw [List.getElem_cons_succ] at shifted
        rw [Nat.add_assoc, Nat.add_comm 1 k]
        exact shifted
      rw [lengths, BoundedBuffer.window_add, next, restCells]
      simp only [Nat.add_zero, List.getElem_cons_zero] at first second
      simp [window, pairCells, List.range', first, second]

/-- After a call the cells behind the dongle's part are still unwritten. -/
theorem TailUnwritten.rtlsdrCallback
    {state : DongleState R}
    (unwritten : TailUnwritten state)
    (buf : Nat → UInt8) :
    TailUnwritten (Hpsdr.rtlsdrCallback rtlLut decay state buf) := by
  have halves : 2 * (rtlReadCount / 2) = rtlReadCount := by decide
  obtain ⟨fresh, _, _, _, others⟩ :=
    foldl_storeSample rtlLut decay buf state (rtlReadCount / 2)
  intro index beyond
  unfold Hpsdr.rtlsdrCallback
  rw [others index (by omega), unwritten index beyond]

/-- The `memmove` writes the front of the buffer only. -/
theorem TailUnwritten.step
    {state next : DongleState R}
    {buf : Nat → UInt8}
    (unwritten : TailUnwritten state)
    (taken : firstPassStep rtlLut decay state buf = some next) :
    TailUnwritten next := by
  have stored := unwritten.rtlsdrCallback rtlLut decay buf
  rw [firstPassStep, Option.some.injEq] at taken
  rw [← taken]
  intro index beyond
  have count : rtlReadCount = 16384 := rfl
  have moved : firstPass.coeffLen * 2 = 32 := rfl
  show moveTail firstPass _ index = none
  rw [moveTail, BoundedBuffer.blit_of_outside
    (by rw [BoundedBuffer.length_window]; omega)]
  exact stored index beyond

/-- A list of pairs has no unwritten cell. -/
theorem none_not_mem_pairCells (pairs : List (R × R)) :
    none ∉ pairCells pairs := by
  simp [pairCells]

/--
A window follows the stream exactly when it ends before the dongle's part of the
buffer does: the windows behind reach cells that were never written.
-/
theorem windowFollows_rtlsdrCallback_iff
    {state : DongleState R}
    (unwritten : TailUnwritten state)
    (buf : Nat → UInt8)
    {turn : Nat}
    (inLoop : turn < firstPass.count / 2) :
    WindowFollows (rtlsdrCallback rtlLut decay state buf) turn ↔
      turn + firstPass.coeffLen ≤ firstPass.count / 2 := by
  have count : rtlReadCount = 16384 := rfl
  have turns : firstPass.count / 2 = 8192 := rfl
  have taps : firstPass.coeffLen = 16 := rfl
  rw [turns] at inLoop
  rw [turns, taps]
  constructor
  · rintro ⟨start, follows⟩
    by_contra reachesTail
    have stored := unwritten.rtlsdrCallback rtlLut decay buf
    have inWindow :
        none ∈
          window (rtlsdrCallback rtlLut decay state buf).iqBuf
            (2 * turn) (firstPass.coeffLen * 2) := by
      refine List.mem_map.mpr ⟨rtlReadCount, ?_, stored _ (Nat.le_refl _)⟩
      rw [List.mem_range'_1, taps]
      omega
    rw [follows] at inWindow
    exact none_not_mem_pairCells _ inWindow
  · intro inside
    obtain ⟨fresh, length, samples, cells, _⟩ :=
      foldl_storeSample rtlLut decay buf state (rtlReadCount / 2)
    rw [count] at length
    have windowLength : ((fresh.drop turn).take 16).length = 16 := by
      rw [List.length_take, List.length_drop]
      omega
    have isWindow :
        window
            ((List.range (rtlReadCount / 2)).foldl
              (storeSample rtlLut decay buf) state).iqBuf
            (2 * turn) (((fresh.drop turn).take 16).length * 2) =
          pairCells ((fresh.drop turn).take 16) := by
      apply window_eq_pairCells
      intro k below
      rw [windowLength] at below
      have inFresh : turn + k < fresh.length := by omega
      rw [List.getElem_take, List.getElem_drop]
      exact cells (turn + k) inFresh
    rw [windowLength] at isWindow
    refine ⟨16 + (state.samples.length + turn), ?_⟩
    unfold rtlsdrCallback
    rw [taps, isWindow, samples, ← List.drop_drop,
      List.drop_left' (List.length_replicate), ← List.drop_drop,
      List.drop_left]

/-- The last window of a call always reaches the unwritten cells. -/
theorem TailUnwritten.not_windowsFollow
    {state : DongleState R}
    (unwritten : TailUnwritten state)
    (buf : Nat → UInt8) :
    ¬ WindowsFollow rtlLut decay state buf := by
  intro follow
  have lastTurn : 8191 < firstPass.count / 2 := by decide
  have inside :=
    (windowFollows_rtlsdrCallback_iff rtlLut decay unwritten buf
      lastTurn).mp
      (follow 8191 lastTurn)
  exact absurd inside (by decide)

/-- Before the first buffer no cell is written, the last ones included. -/
theorem TailUnwritten.initial :
    TailUnwritten (DongleState.initial : DongleState R) :=
  fun _ _ => rfl

/-- In every call of every sequence some window leaves the stream. -/
theorem firstPass_everyStep_not_follow
    (buffers : List (Nat → UInt8)) :
    PartialRun.EveryStep (firstPassStep rtlLut decay)
      (fun state buf => ¬ WindowsFollow rtlLut decay state buf)
      DongleState.initial buffers := by
  intro earlier buf later state next _ reached _
  have unwritten : TailUnwritten state :=
    PartialRun.invariant TailUnwritten (TailUnwritten.step rtlLut decay)
      TailUnwritten.initial reached
  exact unwritten.not_windowsFollow rtlLut decay buf

/--
All windows of the first pass are consecutive samples of the stream only when
there is no call at all: in every call some window is not.
-/
theorem firstPass_windows_follow_iff
    (buffers : List (Nat → UInt8)) :
    (PartialRun.EveryStep (firstPassStep rtlLut decay)
        (WindowsFollow rtlLut decay) DongleState.initial buffers ↔
      buffers = []) ∧
      PartialRun.EveryStep (firstPassStep rtlLut decay)
        (fun state buf => ¬ WindowsFollow rtlLut decay state buf)
        DongleState.initial buffers := by
  have never := firstPass_everyStep_not_follow rtlLut decay buffers
  refine ⟨⟨?_, ?_⟩, never⟩
  · intro follow
    cases buffers with
    | nil =>
        rfl
    | cons buf rest =>
        exact absurd
          (follow [] buf rest DongleState.initial _ rfl rfl rfl)
          (never [] buf rest DongleState.initial _ rfl rfl rfl)
  · intro isEmpty earlier buf later state next split
    rw [isEmpty] at split
    exact absurd split.symm (by simp)

end Callback

/-- `rtl_lut[0]` with a signal multiplier of one. -/
def firstRateLut (byte : UInt8) : ℚ :=
  (byte.toNat - 127.4) / 128 * 256

/-- One buffer of zero bytes: its last windows read cells that were never written. -/
theorem firstPass_windows_not_follow :
    ¬ PartialRun.EveryStep (firstPassStep firstRateLut 0.9999)
      (WindowsFollow firstRateLut 0.9999) DongleState.initial
      [fun _ => 0] := by
  intro follow
  exact TailUnwritten.initial.not_windowsFollow firstRateLut 0.9999
    (fun _ => 0)
    (follow [] (fun _ => 0) [] DongleState.initial _ rfl rfl rfl)

end LibRtlSdr.Hpsdr
