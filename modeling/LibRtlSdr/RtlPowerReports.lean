import LibRtlSdr.FlushedFolds
import LibRtlSdr.RtlPowerScanner
import LibRtlSdr.RtlPowerWindowLimits

namespace LibRtlSdr.RtlPower

/-!
# What the reports of `rtl_power` hold

A capture of a hop is a list of spectra, one for each frame, and a row is the tally of the
spectra that the hop has been given since the row before.  Each spectrum is in one row, or
in the sums of the next, whatever the other hops do and wherever the scan is cut off.
-/

open BoundedBuffer (blit window)
open FlushedFolds (Event State)

/-! ## Spectra -/

/-- The powers of the bins of a frame. -/
def spectrumAt (fftBuf : Nat → Int16) (offset : Nat) : Nat → Int :=
  fun j => realConj (fftBuf (offset + j * 2)) (fftBuf (offset + j * 2 + 1))

section Spectra

variable (o : ScanOptions) (sinewave : List Int16) (windowCoefs : Nat → Int)
variable (dcError : Int → Int → Int)

/-- The spectra of the frames at some offsets. -/
def frameSpectra (binE : Nat) : Windowing → List Nat → Option (List (Nat → Int))
  | _, [] => some []
  | s, offset :: offsets => do
      let next ← frameTurn sinewave windowCoefs binE s offset
      let rest ← frameSpectra binE next offsets
      some (spectrumAt next.fftBuf offset :: rest)

/-- The spectra of a buffer; one bin is the power of the whole buffer. -/
def spectraOf
    (tune : TuningState)
    (binE bufLen : Nat)
    (buf8 : Nat → UInt8) :
    Option (List (Nat → Int)) :=
  if 2 ^ binE = 1 then
    some [fun _ => rms dcError buf8 tune.bufLen]
  else do
    let fftBuf ← lowered o tune bufLen (prepared buf8)
    if tune.downsample = 0 then
      none
    else if tune.downsample < 0 then
      if (bufLen : Int).tdiv tune.downsample = 0 then none else some []
    else do
      let ds := tune.downsample.toNat
      let balanced ← removeDcs fftBuf bufLen ds
      frameSpectra sinewave windowCoefs binE ⟨balanced, []⟩
        (frameOffsets bufLen ds (2 ^ binE))

/-- What a hop sees of a turn: its capture, if there is one, and the report. -/
def turnEvents (k : Nat) (turn : Turn) : List (Event (List UInt8)) :=
  (turn.captures[k]?).toList.map .item ++ if turn.due then [.flush] else []

/-- What it sees of some turns. -/
def hopEvents (k : Nat) (turns : List Turn) : List (Event (List UInt8)) :=
  turns.flatMap (turnEvents k)

/-- The spectra of these captures; a short one leaves the end of the buffer before it. -/
def heard
    (tune : TuningState)
    (binE bufLen : Nat) :
    (Nat → UInt8) → List (Event (List UInt8)) → Option (List (Event (Nat → Int)))
  | _, [] => some []
  | buf8, .item bytes :: events => do
      let filled := blit 0 (bytes.take bufLen) buf8
      let spectra ← spectraOf o sinewave windowCoefs dcError tune binE bufLen filled
      let rest ← heard tune binE bufLen filled events
      some (spectra.map .item ++ rest)
  | buf8, .flush :: events => do
      let rest ← heard tune binE bufLen buf8 events
      some (.flush :: rest)

end Spectra

/-! ## Tallies -/

/-- The sums, or the peaks, of some spectra, and their samples. -/
structure Tally where
  sums : Nat → Int
  samples : Int

/-- No spectrum. -/
def Tally.empty : Tally :=
  ⟨fun _ => 0, 0⟩

section Tallies

variable (o : ScanOptions) (tune : TuningState)

/-- One spectrum more. -/
def Tally.add (tally : Tally) (spectrum : Nat → Int) : Tally where
  sums j := added o (spectrum j) (tally.sums j)
  samples := tally.samples + if 2 ^ tune.binE = 1 then 1 else tune.downsample

/-- The tally of some spectra. -/
def tallyOf (spectra : List (Nat → Int)) : Tally :=
  spectra.foldl (Tally.add o tune) .empty

end Tallies

/-- A hop holds a tally in its sums. -/
structure Hop.Holds (hop : Hop) (tally : Tally) : Prop where
  avg : ∀ j < 2 ^ hop.tune.binE, hop.avg j = tally.sums j
  samples : hop.samples = tally.samples

/-- The bin that stands in a column: those below the tuned frequency come first. -/
def columnBin (binE c : Nat) : Nat :=
  let bin := (c + 2 ^ binE / 2) % 2 ^ binE
  if 0 < binE ∧ bin = 0 then 1 else bin

/-- The row of a tally. -/
def rowFrom (tune : TuningState) (tally : Tally) : Row :=
  let len : Nat := 2 ^ tune.binE
  let bw2 := (tune.rate * len).tdiv (len * 2 * tune.downsample)
  { low := tune.freq - bw2
    high := tune.freq + bw2
    samples := tally.samples
    values :=
      (List.range len).map (fun c => tally.sums (columnBin tune.binE c)) ++
        [tally.sums (columnBin tune.binE (len - 1))] }

/-! ## Rows -/

theorem translateTurn_apply
    (half : Nat)
    (avg : Nat → Int)
    (i place : Nat) :
    translateTurn half avg i place =
      if place = i + half then avg i else if place = i then avg (i + half) else avg place := by
  unfold translateTurn
  rw [Function.update_apply, Function.update_apply]

/-- The loop that translates the bins exchanges the halves. -/
theorem translate_turns
    (half : Nat)
    (avg : Nat → Int)
    {count : Nat}
    (atMost : count ≤ half)
    (i : Nat) :
    (List.range count).foldl (translateTurn half) avg i =
      if i < count then
        avg (i + half)
      else if half ≤ i ∧ i < half + count then
        avg (i - half)
      else
        avg i := by
  induction count generalizing i with
  | zero =>
      rw [if_neg (by omega), if_neg (by omega)]
      rfl
  | succ count inductionHypothesis =>
      have before := inductionHypothesis (by omega)
      rw [List.range_succ, List.foldl_append, List.foldl_cons, List.foldl_nil,
        translateTurn_apply, before, before, before]
      by_cases isHigh : i = count + half
      · rw [if_pos isHigh, if_neg (by omega), if_neg (by omega), if_neg (by omega),
          if_pos (by omega), isHigh, Nat.add_sub_cancel]
      · by_cases isLow : i = count
        · rw [if_neg isHigh, if_pos isLow, if_neg (by omega), if_neg (by omega),
            if_pos (by omega), isLow]
        · rw [if_neg isHigh, if_neg isLow]
          by_cases low : i < count
          · rw [if_pos low, if_pos (by omega)]
          · rw [if_neg low, if_neg (show ¬ i < count + 1 by omega)]
            by_cases high : half ≤ i ∧ i < half + count
            · rw [if_pos high, if_pos (by omega)]
            · rw [if_neg high, if_neg (by omega)]

/-- A column of a row. -/
theorem translated_apply
    {binE c : Nat}
    (avg : Nat → Int)
    (inside : c < 2 ^ binE) :
    translated binE avg c = avg (columnBin binE c) := by
  unfold translated columnBin
  cases binE with
  | zero =>
      have isZero : c = 0 := by omega
      rw [isZero]
      rfl
  | succ binE =>
      have whole : 2 ^ (binE + 1) = 2 * 2 ^ binE := Nat.pow_succ'
      have positive := Nat.two_pow_pos binE
      have half : 2 ^ (binE + 1) / 2 = 2 ^ binE := by omega
      rw [if_pos (Nat.succ_pos binE), half, translate_turns _ _ (Nat.le_refl _)]
      dsimp only
      by_cases low : c < 2 ^ binE
      · have bin : (c + 2 ^ binE) % 2 ^ (binE + 1) = c + 2 ^ binE :=
          Nat.mod_eq_of_lt (by omega)
        rw [if_pos low, bin, if_neg (by omega), Function.update_of_ne (by omega)]
      · have bin : (c + 2 ^ binE) % 2 ^ (binE + 1) = c - 2 ^ binE := by
          rw [show c + 2 ^ binE = c - 2 ^ binE + 2 ^ (binE + 1) by omega, Nat.add_mod_right,
            Nat.mod_eq_of_lt (by omega)]
        rw [if_neg low, if_pos (by omega), bin]
        by_cases first : c - 2 ^ binE = 0
        · rw [if_pos ⟨Nat.succ_pos binE, first⟩, first, Function.update_self]
        · rw [if_neg (fun both => first both.2), Function.update_of_ne first]

theorem columnBin_lt
    {binE c : Nat} :
    columnBin binE c < 2 ^ binE := by
  have positive := Nat.two_pow_pos binE
  have bin := Nat.mod_lt (c + 2 ^ binE / 2) positive
  unfold columnBin
  dsimp only
  split
  · rename_i first
    exact Nat.one_lt_two_pow (by omega)
  · exact bin

/-- The row of a hop is that of its tally. -/
theorem rowOf_eq
    {hop : Hop}
    {tally : Tally}
    (holds : hop.Holds tally) :
    rowOf hop = rowFrom hop.tune tally := by
  have positive := Nat.two_pow_pos hop.tune.binE
  have column :
      ∀ c < 2 ^ hop.tune.binE,
        translated hop.tune.binE hop.avg c = tally.sums (columnBin hop.tune.binE c) := by
    intro c inside
    rw [translated_apply hop.avg inside, holds.avg _ columnBin_lt]
  have last :
      (if hop.tune.binE = 0 then translated hop.tune.binE hop.avg 0
        else translated hop.tune.binE hop.avg (2 ^ hop.tune.binE - 1)) =
        tally.sums (columnBin hop.tune.binE (2 ^ hop.tune.binE - 1)) := by
    split
    · rename_i single
      rw [column 0 positive, single]
      rfl
    · exact column _ (by omega)
  have columns :
      window (translated hop.tune.binE hop.avg) 0 (2 ^ hop.tune.binE) =
        (List.range (2 ^ hop.tune.binE)).map
          (fun c => tally.sums (columnBin hop.tune.binE c)) := by
    unfold window
    rw [← List.range_eq_range']
    apply List.map_congr_left
    intro c member
    exact column c (List.mem_range.mp member)
  unfold rowOf rowFrom
  dsimp only
  rw [last, columns, holds.samples]

/-- Behind its row a hop holds nothing. -/
theorem csvDbm_holds (hop : Hop) : (csvDbm hop).2.Holds .empty := by
  constructor
  · intro j inside
    exact if_pos inside
  · rfl

/-! ## Captures -/

section Captures

variable {o : ScanOptions} {sinewave : List Int16} {windowCoefs : Nat → Int}
variable {dcError : Int → Int → Int}

/-- The loop over the bins adds the spectrum of the frame. -/
theorem addTurns_apply
    (fftBuf : Nat → Int16)
    (offset : Nat)
    (avg : Nat → Int)
    (count j : Nat) :
    (List.range count).foldl (addTurn o fftBuf offset) avg j =
      if j < count then added o (spectrumAt fftBuf offset j) (avg j) else avg j := by
  induction count generalizing j with
  | zero =>
      rfl
  | succ count inductionHypothesis =>
      rw [List.range_succ, List.foldl_append, List.foldl_cons, List.foldl_nil, addTurn,
        Function.update_apply, inductionHypothesis, inductionHypothesis,
        if_neg (Nat.lt_irrefl count)]
      by_cases last : j = count
      · rw [if_pos last, if_pos (by omega), last]
        rfl
      · rw [if_neg last]
        by_cases before : j < count
        · rw [if_pos before, if_pos (by omega)]
        · rw [if_neg before, if_neg (by omega)]

/-- The frames of a hop are added one by one, while the buffer goes on to the next. -/
theorem framings_spec
    {tune : TuningState}
    (several : 2 ^ tune.binE ≠ 1)
    {offsets : List Nat}
    {s final : Framing}
    {tally : Tally}
    (frames :
      offsets.foldlM
          (framingTurn o sinewave windowCoefs tune.binE tune.downsample) s =
        some final)
    (avg : ∀ j < 2 ^ tune.binE, s.avg j = tally.sums j)
    (samples : s.samples = tally.samples) :
    ∃ spectra,
      frameSpectra sinewave windowCoefs tune.binE s.windowing offsets = some spectra ∧
        (∀ j < 2 ^ tune.binE,
          final.avg j = (spectra.foldl (Tally.add o tune) tally).sums j) ∧
        final.samples = (spectra.foldl (Tally.add o tune) tally).samples := by
  induction offsets generalizing s tally with
  | nil =>
      cases frames
      exact ⟨[], rfl, avg, samples⟩
  | cons offset offsets inductionHypothesis =>
      rw [List.foldlM_cons] at frames
      obtain ⟨next, turned, frames⟩ := Option.bind_eq_some_iff.mp frames
      obtain ⟨windowing, transformed, isNext⟩ := Option.bind_eq_some_iff.mp turned
      cases isNext
      obtain ⟨spectra, called, sums, counted⟩ :=
        @inductionHypothesis _
          (tally.add o tune (spectrumAt windowing.fftBuf offset)) frames
          (by
            intro j inside
            dsimp only
            rw [addTurns_apply, if_pos inside, avg j inside]
            rfl)
          (by
            unfold Tally.add
            rw [if_neg several, samples])
      refine ⟨spectrumAt windowing.fftBuf offset :: spectra, ?_, sums, counted⟩
      unfold frameSpectra
      rw [transformed, Option.bind_eq_bind, Option.bind_some, called]
      rfl

/-- A capture adds its spectra to what the hop holds. -/
theorem scanTune_spec
    {bufLen : Nat}
    {hop next : Hop}
    {bytes : List UInt8}
    {tally : Tally}
    (scans :
      scanTune o sinewave windowCoefs dcError hop.tune.binE bufLen hop bytes = some next)
    (holds : hop.Holds tally) :
    ∃ spectra,
      spectraOf o sinewave windowCoefs dcError hop.tune hop.tune.binE bufLen
          (blit 0 (bytes.take bufLen) hop.buf8) =
          some spectra ∧
        next.tune = hop.tune ∧
        next.buf8 = blit 0 (bytes.take bufLen) hop.buf8 ∧
        next.Holds (spectra.foldl (Tally.add o hop.tune) tally) := by
  unfold scanTune at scans
  unfold spectraOf
  dsimp only at scans
  by_cases single : 2 ^ hop.tune.binE = 1
  · rw [if_pos single] at scans
    rw [if_pos single]
    cases scans
    refine ⟨_, rfl, rfl, rfl, ?_, ?_⟩
    · intro j inside
      have isFirst : j = 0 := by
        have inside : j < 2 ^ hop.tune.binE := inside
        omega
      rw [isFirst]
      unfold rmsPower
      dsimp only
      rw [Function.update_self, holds.avg 0 (Nat.two_pow_pos _)]
      rfl
    · unfold rmsPower
      dsimp only [List.foldl_cons, List.foldl_nil, Tally.add]
      rw [if_pos single, holds.samples]
  · rw [if_neg single] at scans
    rw [if_neg single]
    obtain ⟨fftBuf, isLowered, scans⟩ := Option.bind_eq_some_iff.mp scans
    rw [isLowered, Option.bind_eq_bind, Option.bind_some]
    split at scans
    · cases scans
    · rename_i notZero
      rw [if_neg notZero]
      split at scans
      · rename_i negative
        rw [if_pos negative]
        split at scans
        · cases scans
        · rename_i emptied
          cases scans
          exact ⟨[], if_neg emptied, rfl, rfl, holds.avg, holds.samples⟩
      · rename_i nonneg
        rw [if_neg nonneg]
        dsimp only
        obtain ⟨balanced, isBalanced, scans⟩ := Option.bind_eq_some_iff.mp scans
        obtain ⟨final, frames, isNext⟩ := Option.bind_eq_some_iff.mp scans
        cases isNext
        obtain ⟨spectra, called, avg, samples⟩ :=
          framings_spec single frames holds.avg holds.samples
        refine ⟨spectra, ?_, rfl, rfl, avg, samples⟩
        rw [isBalanced, Option.bind_some, called]

/-- The hops of a scan have the sizes of the first. -/
def Alike (binE bufLen : Nat) (hops : List Hop) : Prop :=
  ∀ hop ∈ hops, hop.tune.binE = binE ∧ hop.tune.bufLen.toNat = bufLen

/-- A hop is scanned with its own capture, if there is one, and the others are left alone. -/
theorem scanHops_get
    {binE bufLen : Nat}
    {hops next : List Hop}
    {captures : List (List UInt8)}
    (scans : scanHops o sinewave windowCoefs dcError binE bufLen hops captures = some next)
    {k : Nat}
    {hop : Hop}
    (isHop : hops[k]? = some hop) :
    ∃ scanned,
      next[k]? = some scanned ∧
        match captures[k]? with
        | some bytes =>
            scanTune o sinewave windowCoefs dcError binE bufLen hop bytes = some scanned
        | none => scanned = hop := by
  induction hops generalizing captures next k with
  | nil =>
      cases isHop
  | cons first hops inductionHypothesis =>
      cases captures with
      | nil =>
          cases scans
          exact ⟨hop, isHop, rfl⟩
      | cons bytes captures =>
          obtain ⟨scanned, isScanned, scans⟩ := Option.bind_eq_some_iff.mp scans
          obtain ⟨rest, isRest, isNext⟩ := Option.bind_eq_some_iff.mp scans
          cases isNext
          cases k with
          | zero =>
              cases isHop
              exact ⟨scanned, rfl, isScanned⟩
          | succ k =>
              exact inductionHypothesis isRest isHop

/-- No hop changes what it is tuned to. -/
theorem scanHops_tunes
    {binE bufLen : Nat}
    {hops next : List Hop}
    {captures : List (List UInt8)}
    (alike : Alike binE bufLen hops)
    (scans : scanHops o sinewave windowCoefs dcError binE bufLen hops captures = some next) :
    next.map Hop.tune = hops.map Hop.tune := by
  induction hops generalizing captures next with
  | nil =>
      cases scans
      rfl
  | cons first hops inductionHypothesis =>
      cases captures with
      | nil =>
          cases scans
          rfl
      | cons bytes captures =>
          obtain ⟨scanned, isScanned, scans⟩ := Option.bind_eq_some_iff.mp scans
          obtain ⟨rest, isRest, isNext⟩ := Option.bind_eq_some_iff.mp scans
          cases isNext
          obtain ⟨isFirst, others⟩ := List.forall_mem_cons.mp alike
          rw [← isFirst.1] at isScanned
          have holds : first.Holds ⟨first.avg, first.samples⟩ :=
            ⟨fun _ _ => rfl, rfl⟩
          obtain ⟨_, _, sameTune, _⟩ := scanTune_spec isScanned holds
          rw [List.map_cons, List.map_cons, sameTune, inductionHypothesis others isRest]

theorem Alike.of_tunes
    {binE bufLen : Nat}
    {hops next : List Hop}
    (alike : Alike binE bufLen hops)
    (same : next.map Hop.tune = hops.map Hop.tune) :
    Alike binE bufLen next := by
  intro hop member
  have isTune : hop.tune ∈ hops.map Hop.tune := by
    rw [← same]
    exact List.mem_map_of_mem member
  obtain ⟨other, isOther, sameTune⟩ := List.mem_map.mp isTune
  rw [← sameTune]
  exact alike other isOther

/-- The scanner takes its sizes from hops that are alike. -/
theorem scanner_eq
    {binE bufLen : Nat}
    {hops : List Hop}
    (alike : Alike binE bufLen hops)
    (captures : List (List UInt8)) :
    scanner o sinewave windowCoefs dcError hops captures =
      scanHops o sinewave windowCoefs dcError binE bufLen hops captures := by
  cases hops with
  | nil =>
      rfl
  | cons first hops =>
      obtain ⟨sameBins, sameLength⟩ := alike first List.mem_cons_self
      unfold scanner
      dsimp only
      rw [sameBins, sameLength]

end Captures

/-! ## Turns -/

section Turns

variable {o : ScanOptions} {sinewave : List Int16} {windowCoefs : Nat → Int}
variable {dcError : Int → Int → Int}

/-- Hop `k` and its rows, against what the hop has been given. -/
structure Accounts
    (k : Nat)
    (tune : TuningState)
    (s : Scan)
    (buf8 : Nat → UInt8)
    (t : State Tally) : Prop where
  hop :
    ∃ hop,
      s.hops[k]? = some hop ∧ hop.tune = tune ∧ hop.buf8 = buf8 ∧ hop.Holds t.acc
  reports :
    s.reports.map (fun rows => rows[k]?) =
      t.flushed.map fun tally => some (rowFrom tune tally)

/-- A report writes the row of what the hop holds, and the hop begins again. -/
theorem Accounts.reported
    {k : Nat}
    {tune : TuningState}
    {s : Scan}
    {buf8 : Nat → UInt8}
    {t : State Tally}
    (accounts : Accounts k tune s buf8 t) :
    Accounts k tune
      { hops := s.hops.map fun hop => (csvDbm hop).2
        reports := s.reports ++ [s.hops.map fun hop => (csvDbm hop).1] }
      buf8 ⟨.empty, t.flushed ++ [t.acc]⟩ := by
  obtain ⟨hop, isHop, rfl, rfl, holds⟩ := accounts.hop
  constructor
  · refine ⟨(csvDbm hop).2, ?_, rfl, rfl, csvDbm_holds hop⟩
    rw [List.getElem?_map, isHop]
    rfl
  · rw [List.map_append, List.map_append, accounts.reports, List.map_singleton,
      List.map_singleton, List.getElem?_map, isHop, ← rowOf_eq holds]
    rfl

/-- The scanner gives a hop the spectra of its capture. -/
theorem Accounts.scanned
    {k binE bufLen : Nat}
    {tune : TuningState}
    {s : Scan}
    {buf8 : Nat → UInt8}
    {t : State Tally}
    (accounts : Accounts k tune s buf8 t)
    (alike : Alike binE bufLen s.hops)
    {captures : List (List UInt8)}
    {hops : List Hop}
    (scans :
      scanHops o sinewave windowCoefs dcError binE bufLen s.hops captures = some hops) :
    ∃ (spectra : List (Nat → Int)) (filled : Nat → UInt8),
      (∀ events,
        heard o sinewave windowCoefs dcError tune binE bufLen buf8
            ((captures[k]?).toList.map .item ++ events) =
          (heard o sinewave windowCoefs dcError tune binE bufLen filled events).map
            (spectra.map .item ++ ·)) ∧
        Accounts k tune { s with hops := hops } filled
          ⟨spectra.foldl (Tally.add o tune) t.acc, t.flushed⟩ := by
  obtain ⟨hop, isHop, rfl, rfl, holds⟩ := accounts.hop
  obtain ⟨scanned, isScanned, scannedIs⟩ := scanHops_get scans isHop
  have sameBins : hop.tune.binE = binE := (alike hop (List.mem_of_getElem? isHop)).1
  cases captured : captures[k]? with
  | none =>
      rw [captured] at scannedIs
      refine ⟨[], hop.buf8, ?_, ?_⟩
      · intro events
        exact (@Option.map_id' _ _).symm
      · rw [show scanned = hop from scannedIs] at isScanned
        exact ⟨⟨hop, isScanned, rfl, rfl, holds⟩, accounts.reports⟩
  | some bytes =>
      rw [captured] at scannedIs
      dsimp only at scannedIs
      rw [← sameBins] at scannedIs
      obtain ⟨spectra, called, sameTune, filled, held⟩ := scanTune_spec scannedIs holds
      rw [sameBins] at called
      refine ⟨spectra, _, ?_, ⟨scanned, isScanned, sameTune, filled, held⟩,
        accounts.reports⟩
      intro events
      rw [Option.toList_some, List.map_singleton, List.singleton_append, heard, called,
        Option.bind_eq_bind, Option.bind_some, Option.map_eq_bind]
      rfl

/-- A turn. -/
theorem Accounts.turn
    {k binE bufLen : Nat}
    {tune : TuningState}
    {s next : Scan}
    {buf8 : Nat → UInt8}
    {t : State Tally}
    (accounts : Accounts k tune s buf8 t)
    (alike : Alike binE bufLen s.hops)
    {turn : Turn}
    (turned : scanTurn o sinewave windowCoefs dcError s turn = some next) :
    ∃ events filled,
      (∀ rest,
        heard o sinewave windowCoefs dcError tune binE bufLen buf8
            (turnEvents k turn ++ rest) =
          (heard o sinewave windowCoefs dcError tune binE bufLen filled rest).map
            (events ++ ·)) ∧
        Accounts k tune next filled
          (FlushedFolds.run (Tally.add o tune) .empty t events) ∧
        Alike binE bufLen next.hops := by
  unfold scanTurn at turned
  rw [scanner_eq alike] at turned
  obtain ⟨hops, scans, isNext⟩ := Option.bind_eq_some_iff.mp turned
  obtain ⟨spectra, filled, heardOf, held⟩ := accounts.scanned alike scans
  have stillAlike : Alike binE bufLen hops := alike.of_tunes (scanHops_tunes alike scans)
  unfold turnEvents
  cases due : turn.due with
  | false =>
      rw [due] at isNext
      cases isNext
      refine ⟨spectra.map .item, filled, ?_, ?_, stillAlike⟩
      · intro rest
        rw [if_neg (by decide), List.append_nil]
        exact heardOf rest
      · rw [FlushedFolds.run_items]
        exact held
  | true =>
      rw [due] at isNext
      cases isNext
      refine ⟨spectra.map .item ++ [.flush], filled, ?_, ?_, ?_⟩
      · intro rest
        rw [if_pos rfl, List.append_assoc, heardOf, List.singleton_append, heard]
        cases heard o sinewave windowCoefs dcError tune binE bufLen filled rest with
        | none =>
            rfl
        | some events =>
            change some (_ ++ (.flush :: events)) = some (_ ++ [.flush] ++ events)
            rw [List.append_assoc, List.singleton_append]
      · rw [FlushedFolds.run_append, FlushedFolds.run_items]
        exact held.reported
      · apply stillAlike.of_tunes
        rw [List.map_map]
        rfl

/-- The turns of a run. -/
theorem Accounts.turns
    {k binE bufLen : Nat}
    {tune : TuningState}
    {s final : Scan}
    {buf8 : Nat → UInt8}
    {t : State Tally}
    (accounts : Accounts k tune s buf8 t)
    (alike : Alike binE bufLen s.hops)
    {turns : List Turn}
    (ran : turns.foldlM (scanTurn o sinewave windowCoefs dcError) s = some final) :
    ∃ events filled,
      heard o sinewave windowCoefs dcError tune binE bufLen buf8 (hopEvents k turns) =
          some events ∧
        Accounts k tune final filled
          (FlushedFolds.run (Tally.add o tune) .empty t events) := by
  induction turns generalizing s buf8 t with
  | nil =>
      cases ran
      exact ⟨[], buf8, rfl, accounts⟩
  | cons turn turns inductionHypothesis =>
      rw [List.foldlM_cons] at ran
      obtain ⟨next, turned, ran⟩ := Option.bind_eq_some_iff.mp ran
      obtain ⟨first, between, heardFirst, held, stillAlike⟩ := accounts.turn alike turned
      obtain ⟨rest, filled, heardRest, account⟩ :=
        inductionHypothesis held stillAlike ran
      refine ⟨first ++ rest, filled, ?_, ?_⟩
      · unfold hopEvents
        rw [List.flatMap_cons, heardFirst]
        unfold hopEvents at heardRest
        rw [heardRest]
        rfl
      · rw [FlushedFolds.run_append]
        exact account

end Turns

/-! ## Plans -/

/-- The hops that `frequency_range` leaves: the sums are cleared, the buffers are not. -/
structure Started (plan : Plan) (hops : List Hop) : Prop where
  tunes : hops.map Hop.tune = plan.tunes
  cleared : ∀ hop ∈ hops, hop.Holds .empty

/-- The hops of a plan have its sizes. -/
theorem frequencyRange_alike
    {boxcar : Bool}
    {lower upper maxSize : Int}
    {plan : Plan}
    (planned : frequencyRange boxcar lower upper maxSize = some (.planned plan))
    {hops : List Hop}
    (started : Started plan hops) :
    Alike plan.binE plan.bufLen.toNat hops := by
  have built :
      ∃ bwSeen bwUsed tuneCount downsample binE passes,
        buildPlan lower bwSeen bwUsed tuneCount downsample binE passes =
          some (.planned plan) := by
    unfold frequencyRange at planned
    obtain ⟨width, _, planned⟩ := Option.bind_eq_some_iff.mp planned
    obtain ⟨found, _, planned⟩ := Option.bind_eq_some_iff.mp planned
    obtain ⟨raised, _, planned⟩ := Option.bind_eq_some_iff.mp planned
    obtain ⟨rates, _, planned⟩ := Option.bind_eq_some_iff.mp planned
    obtain ⟨binE, _, planned⟩ := Option.bind_eq_some_iff.mp planned
    split at planned
    · obtain ⟨tuneCount, _, planned⟩ := Option.bind_eq_some_iff.mp planned
      exact ⟨_, _, _, _, _, _, planned⟩
    · exact ⟨_, _, _, _, _, _, planned⟩
  obtain ⟨bwSeen, bwUsed, tuneCount, downsample, binE, passes, built⟩ := built
  unfold buildPlan at built
  split at built
  · cases built
  obtain ⟨bins, _, built⟩ := Option.bind_eq_some_iff.mp built
  obtain ⟨wanted, _, built⟩ := Option.bind_eq_some_iff.mp built
  obtain ⟨tunes, each, isPlan⟩ := Option.bind_eq_some_iff.mp built
  cases isPlan
  intro hop member
  have isTune : hop.tune ∈ tunes := by
    rw [← show hops.map Hop.tune = tunes from started.tunes]
    exact List.mem_map_of_mem member
  obtain ⟨i, _, isHop⟩ := exists_of_mem_mapM each _ isTune
  obtain ⟨freq, _, same⟩ := Option.bind_eq_some_iff.mp isHop
  rw [Option.some.injEq] at same
  rw [← same]
  exact ⟨rfl, rfl⟩

/-! ## Every scan comes to its end -/

section Completes

variable {o : ScanOptions} {sinewave : List Int16} {windowCoefs : Nat → Int}
variable {dcError : Int → Int → Int}

/-- What a hop needs: frames in its buffer, and no compensation that could overflow. -/
structure Scannable (o : ScanOptions) (bufLen : Nat) (tune : TuningState) : Prop where
  positive : 0 < tune.downsample
  room : 2 ≤ bufLen / tune.downsample.toNat
  plain : tune.downsamplePasses = 0 ∨ o.compFirSize ≠ 9

theorem lowered_isSome
    {bufLen : Nat}
    {tune : TuningState}
    (scannable : Scannable o bufLen tune)
    (fftBuf : Nat → Int16) :
    ∃ result, lowered o tune bufLen fftBuf = some result := by
  unfold lowered
  split
  · exact ⟨_, rfl⟩
  · split
    · exact ⟨_, rfl⟩
    · rename_i passes
      dsimp only
      rw [if_neg (fun both => scannable.plain.elim passes (fun other => other both.1))]
      exact ⟨_, rfl⟩

/-- `fix_fft` comes to its end for each frame, whatever the buffer holds. -/
theorem framings_isSome
    {binE : Nat}
    (isTable : sinewave.length = 3 * 2 ^ binE / 4)
    (ds : Int)
    (offsets : List Nat)
    (s : Framing) :
    ∃ final,
      offsets.foldlM (framingTurn o sinewave windowCoefs binE ds) s = some final := by
  induction offsets generalizing s with
  | nil =>
      exact ⟨s, rfl⟩
  | cons offset offsets inductionHypothesis =>
      obtain ⟨windowing, turned, _⟩ :=
        frameTurn_products sinewave windowCoefs isTable s.windowing offset
      rw [List.foldlM_cons, framingTurn, turned]
      exact inductionHypothesis _

theorem scanTune_isSome
    {binE bufLen : Nat}
    (isTable : sinewave.length = 3 * 2 ^ binE / 4)
    {hop : Hop}
    (scannable : Scannable o bufLen hop.tune)
    (bytes : List UInt8) :
    ∃ next, scanTune o sinewave windowCoefs dcError binE bufLen hop bytes = some next := by
  unfold scanTune
  dsimp only
  split
  · exact ⟨_, rfl⟩
  · obtain ⟨fftBuf, isLowered⟩ :=
      lowered_isSome scannable (prepared (blit 0 (bytes.take bufLen) hop.buf8))
    obtain ⟨balanced, isBalanced, _⟩ := removeDcs_spec fftBuf scannable.room
    obtain ⟨final, frames⟩ :=
      @framings_isSome o sinewave windowCoefs _ isTable hop.tune.downsample
        (frameOffsets bufLen hop.tune.downsample.toNat (2 ^ binE))
        ⟨⟨balanced, []⟩, hop.avg, hop.samples⟩
    have positive := scannable.positive
    rw [isLowered, Option.bind_eq_bind, Option.bind_some, if_neg (by omega),
      if_neg (by omega), isBalanced, Option.bind_some, frames]
    exact ⟨_, rfl⟩

theorem scanHops_isSome
    {binE bufLen : Nat}
    (isTable : sinewave.length = 3 * 2 ^ binE / 4)
    {hops : List Hop}
    (scannable : ∀ hop ∈ hops, Scannable o bufLen hop.tune)
    (captures : List (List UInt8)) :
    ∃ next,
      scanHops o sinewave windowCoefs dcError binE bufLen hops captures = some next := by
  induction hops generalizing captures with
  | nil =>
      exact ⟨[], rfl⟩
  | cons hop hops inductionHypothesis =>
      cases captures with
      | nil =>
          exact ⟨_, rfl⟩
      | cons bytes captures =>
          obtain ⟨isHop, others⟩ := List.forall_mem_cons.mp scannable
          obtain ⟨scanned, isScanned⟩ :=
            @scanTune_isSome o sinewave windowCoefs dcError _ _ isTable _ isHop bytes
          obtain ⟨rest, isRest⟩ := inductionHypothesis others captures
          rw [scanHops, isScanned, Option.bind_eq_bind, Option.bind_some, isRest]
          exact ⟨_, rfl⟩

/-- A turn comes to its end and leaves hops that are tuned as before. -/
theorem scanTurn_isSome
    {binE bufLen : Nat}
    (isTable : sinewave.length = 3 * 2 ^ binE / 4)
    {s : Scan}
    (alike : Alike binE bufLen s.hops)
    (scannable : ∀ hop ∈ s.hops, Scannable o bufLen hop.tune)
    (turn : Turn) :
    ∃ next,
      scanTurn o sinewave windowCoefs dcError s turn = some next ∧
        next.hops.map Hop.tune = s.hops.map Hop.tune := by
  obtain ⟨hops, scans⟩ :=
    @scanHops_isSome o sinewave windowCoefs dcError _ _ isTable _ scannable turn.captures
  have same := scanHops_tunes alike scans
  unfold scanTurn
  rw [scanner_eq alike, scans, Option.bind_eq_bind, Option.bind_some]
  split
  · refine ⟨_, rfl, ?_⟩
    rw [← same, List.map_map]
    rfl
  · exact ⟨_, rfl, same⟩

theorem scanTurns_isSome
    {binE bufLen : Nat}
    (isTable : sinewave.length = 3 * 2 ^ binE / 4)
    {s : Scan}
    (alike : Alike binE bufLen s.hops)
    (scannable : ∀ hop ∈ s.hops, Scannable o bufLen hop.tune)
    (turns : List Turn) :
    ∃ final,
      turns.foldlM (scanTurn o sinewave windowCoefs dcError) s = some final := by
  induction turns generalizing s with
  | nil =>
      exact ⟨s, rfl⟩
  | cons turn turns inductionHypothesis =>
      obtain ⟨next, turned, same⟩ :=
        @scanTurn_isSome o sinewave windowCoefs dcError _ _ isTable _ alike scannable turn
      have stillScannable : ∀ hop ∈ next.hops, Scannable o bufLen hop.tune := by
        intro hop member
        have isTune : hop.tune ∈ s.hops.map Hop.tune := by
          rw [← same]
          exact List.mem_map_of_mem member
        obtain ⟨other, isOther, sameTune⟩ := List.mem_map.mp isTune
        rw [← sameTune]
        exact scannable other isOther
      rw [List.foldlM_cons, turned]
      exact inductionHypothesis (alike.of_tunes same) stillScannable

end Completes

/-- The hops of a plan can be scanned, unless the compensation is asked for. -/
theorem planOf_scannable
    {o : ScanOptions}
    {lower : Int}
    {count bwSeen bwUsed binE downsample downsamplePasses : Nat}
    (positive : 0 < downsample)
    (plain : downsamplePasses = 0 ∨ o.compFirSize ≠ 9)
    {hops : List Hop}
    (started :
      Started (planOf lower count bwSeen bwUsed binE downsample downsamplePasses) hops) :
    ∀ hop ∈ hops,
      Scannable o
        (planOf lower count bwSeen bwUsed binE downsample
          downsamplePasses).bufLen.toNat hop.tune := by
  intro hop member
  have member : hop.tune ∈ hops.map Hop.tune := List.mem_map_of_mem member
  rw [started.tunes] at member
  obtain ⟨i, _, isTune⟩ := List.mem_map.mp member
  rw [← isTune]
  constructor
  · exact Int.natCast_pos.mpr positive
  · unfold planOf
    dsimp only
    rw [Int.toNat_natCast, Int.toNat_natCast, Nat.le_div_iff_mul_le positive]
    have bins := Nat.two_pow_pos binE
    have most : 2 * downsample ≤ 2 * 2 ^ binE * downsample :=
      Nat.mul_le_mul_right downsample (by omega)
    omega
  · exact plain

/-- The plan of the FM band in steps of 125 kHz. -/
def fmPlan : Plan :=
  planOf 88000000 8 2500000 2500000 5 1 0

/-- Three quarters of a turn in 32 steps. -/
def sine32 : List Int16 :=
  [0, 6393, 12539, 18204, 23170, 27245, 30273, 32137, 32767, 32137, 30273, 27245, 23170,
    18204, 12539, 6393, 0, -6393, -12539, -18204, -23170, -27245, -30273, -32137]

/-- The hops of a plan, with the buffers cleared as well. -/
def clearedHops (plan : Plan) : List Hop :=
  plan.tunes.map fun tune => ⟨tune, fun _ => 0, fun _ => 0, 0⟩

theorem clearedHops_started (plan : Plan) : Started plan (clearedHops plan) := by
  unfold clearedHops
  constructor
  · rw [List.map_map]
    exact List.map_id' plan.tunes
  · intro hop member
    obtain ⟨tune, _, rfl⟩ := List.mem_map.mp member
    exact ⟨fun _ _ => rfl, rfl⟩

end LibRtlSdr.RtlPower
