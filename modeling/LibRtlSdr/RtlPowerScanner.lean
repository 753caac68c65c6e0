import LibRtlSdr.BoundedBuffer
import LibRtlSdr.RtlFmPasses
import LibRtlSdr.RtlPowerWindow

namespace LibRtlSdr.RtlPower

/-!
# The scanner of `rtl_power` and its reports

`scanner` goes over the hops and adds the power of each bin of each frame to the sums of
the hop, or keeps the highest.  When an interval has passed, `csv_dbm` writes a row for
each hop and clears the sums.  The values of a row stand here before they are divided by
the rate and the samples and become decibels; `long` is a type of 64 bits, and the
rounding of `rms_power`'s floating point is a parameter.  A read that comes back short
leaves the end of the buffer as it was, and the hop is processed all the same.
-/

open BoundedBuffer (blit window)
open CheckedInt (Fits)

/-! ## Source -/

/-- The options that `scanner` reads. -/
structure ScanOptions where
  boxcar : Bool
  compFirSize : Int
  peakHold : Bool
deriving DecidableEq

/-- `struct tuning_state`, with what a run changes of it. -/
structure Hop where
  tune : TuningState
  buf8 : Nat → UInt8
  avg : Nat → Int
  samples : Int

/-- `real_conj`. -/
def realConj (real imag : Int16) : Int :=
  real.toInt * real.toInt + imag.toInt * imag.toInt

/-- The state of `generic_fir` of this program, which begins with the first nine samples. -/
structure DroopFir where
  data : Nat → Int16
  hist : Nat → Int16

/-- The turn of the loop at `d`; a sum that is not an `int` has no result. -/
def genericFirTurn
    (fir : List Int)
    (base : Nat)
    (s : DroopFir)
    (d : Nat) :
    Option DroopFir :=
  let temp := s.data (base + d)
  let terms := RtlFm.firTerms fir s.hist
  if ∀ value ∈ RtlFm.firSums terms, Fits value then
    some
      { data := Function.update s.data (base + d) (Int16.ofInt (terms.sum >>> (15 : Nat)))
        hist := RtlFm.shiftHist s.hist temp }
  else
    none

/-- `generic_fir` on the data from `base` on; `d` is 18, 20, ... below `length`. -/
def genericFir
    (data : Nat → Int16)
    (base length : Nat)
    (fir : List Int) :
    Option (Nat → Int16) := do
  let s ←
    (List.range ((length - 17) / 2)).foldlM
      (fun s turn => genericFirTurn fir base s (18 + 2 * turn))
      ⟨data, fun k => data (base + 2 * k)⟩
  some s.data

/-- `downsample_iq` for each of the passes. -/
def halved (passes bufLen : Nat) (fftBuf : Nat → Int16) : Nat → Int16 :=
  (List.range passes).foldl (fun fftBuf j => downsampleIq fftBuf (bufLen >>> j)) fftBuf

section Source

variable (o : ScanOptions)

/-- The part of `scanner` that lowers the rate. -/
def lowered
    (tune : TuningState)
    (bufLen : Nat)
    (fftBuf : Nat → Int16) :
    Option (Nat → Int16) :=
  if o.boxcar = true ∧ 1 < tune.downsample then
    some (boxcar fftBuf bufLen tune.downsample.toNat).fftBuf
  else if tune.downsamplePasses = 0 then
    some fftBuf
  else
    let passed := halved tune.downsamplePasses bufLen fftBuf
    if o.compFirSize = 9 ∧ tune.downsamplePasses ≤ 10 then do
      let fir := RtlFm.cic9Tables.getD tune.downsamplePasses []
      let length := bufLen >>> tune.downsamplePasses
      let first ← genericFir passed 0 length fir
      genericFir first 1 (length - 1) fir
    else
      some passed

/-- A sum with one power more, or the higher of the two. -/
def added (power sum : Int) : Int :=
  if o.peakHold then max power sum else sum + power

/-- `ts->avg[j] += real_conj(..)`, or the higher of the two. -/
def addTurn (fftBuf : Nat → Int16) (offset : Nat) (avg : Nat → Int) (j : Nat) : Nat → Int :=
  Function.update avg j
    (added o (realConj (fftBuf (offset + j * 2)) (fftBuf (offset + j * 2 + 1))) (avg j))

variable (sinewave : List Int16) (windowCoefs : Nat → Int)

/-- A frame of a hop: the buffer, and what has been added up. -/
structure Framing where
  windowing : Windowing
  avg : Nat → Int
  samples : Int

/-- "window function and fft" at an offset, and the sums. -/
def framingTurn (binE : Nat) (ds : Int) (s : Framing) (offset : Nat) : Option Framing := do
  let windowing ← frameTurn sinewave windowCoefs binE s.windowing offset
  some
    { windowing := windowing
      avg := (List.range (2 ^ binE)).foldl (addTurn o windowing.fftBuf offset) s.avg
      samples := s.samples + ds }

variable (dcError : Int → Int → Int)

/-- The squares of the samples of a buffer around 127, without their mean. -/
def rms (buf8 : Nat → UInt8) (bufLen : Int) : Int :=
  let s := (window buf8 0 bufLen.toNat).map fun byte => (byte.toNat : Int) - 127
  let t := s.sum
  let p := (s.map fun s => s * s).sum
  p - dcError t bufLen

/-- `rms_power`. -/
def rmsPower (hop : Hop) : Hop :=
  { hop with
    avg :=
      Function.update hop.avg 0 (added o (rms dcError hop.buf8 hop.tune.bufLen) (hop.avg 0))
    samples := hop.samples + 1 }

/-- The body of the loop of `scanner`, for the bytes that the read returns. -/
def scanTune (binE bufLen : Nat) (hop : Hop) (bytes : List UInt8) : Option Hop :=
  let hop := { hop with buf8 := blit 0 (bytes.take bufLen) hop.buf8 }
  if 2 ^ binE = 1 then
    some (rmsPower o dcError hop)
  else do
    let fftBuf ← lowered o hop.tune bufLen (prepared hop.buf8)
    if hop.tune.downsample = 0 then
      -- `buf_len / ds`
      none
    else if hop.tune.downsample < 0 then
      -- a negative length: the mean of nothing is 0, and there is no frame
      if (bufLen : Int).tdiv hop.tune.downsample = 0 then none else some hop
    else do
      let ds := hop.tune.downsample.toNat
      let balanced ← removeDcs fftBuf bufLen ds
      let s ←
        (frameOffsets bufLen ds (2 ^ binE)).foldlM
          (framingTurn o sinewave windowCoefs binE hop.tune.downsample)
          ⟨⟨balanced, []⟩, hop.avg, hop.samples⟩
      some { hop with avg := s.avg, samples := s.samples }

/-- The hops in turn; where `do_exit` is 2 no more are captured. -/
def scanHops (binE bufLen : Nat) : List Hop → List (List UInt8) → Option (List Hop)
  | [], _ => some []
  | hops, [] => some hops
  | hop :: hops, bytes :: captures => do
      let scanned ← scanTune o sinewave windowCoefs dcError binE bufLen hop bytes
      let rest ← scanHops binE bufLen hops captures
      some (scanned :: rest)

/-- `scanner`: the sizes are those of the first hop. -/
def scanner (hops : List Hop) (captures : List (List UInt8)) : Option (List Hop) :=
  match hops with
  | [] => some []
  | first :: _ =>
      scanHops o sinewave windowCoefs dcError first.tune.binE first.tune.bufLen.toNat hops
        captures

/-- What `csv_dbm` writes, without a crop: the values are those of `avg`. -/
structure Row where
  low : Int
  high : Int
  samples : Int
  values : List Int
deriving DecidableEq

/-- The turn of the loop that translates the bins, at `i`. -/
def translateTurn (half : Nat) (avg : Nat → Int) (i : Nat) : Nat → Int :=
  let tmp := avg i
  Function.update (Function.update avg i (avg (i + half))) (i + half) tmp

/-- "fix FFT stuff quirks". -/
def translated (binE : Nat) (avg : Nat → Int) : Nat → Int :=
  if 0 < binE then
    -- "nuke DC component"
    (List.range (2 ^ binE / 2)).foldl (translateTurn (2 ^ binE / 2))
      (Function.update avg 0 (avg 1))
  else
    avg

/-- The row of `csv_dbm`. -/
def rowOf (hop : Hop) : Row :=
  let len : Nat := 2 ^ hop.tune.binE
  let bw2 := (hop.tune.rate * len).tdiv (len * 2 * hop.tune.downsample)
  let avg := translated hop.tune.binE hop.avg
  { low := hop.tune.freq - bw2
    high := hop.tune.freq + bw2
    samples := hop.samples
    values := window avg 0 len ++ [if hop.tune.binE = 0 then avg 0 else avg (len - 1)] }

/-- `csv_dbm`. -/
def csvDbm (hop : Hop) : Row × Hop :=
  (rowOf hop,
    { hop with
      avg := fun i =>
        if i < 2 ^ hop.tune.binE then 0 else translated hop.tune.binE hop.avg i
      samples := 0 })

/-- A turn of the loop of `main`: what is read, and whether the interval has passed. -/
structure Turn where
  captures : List (List UInt8)
  due : Bool

/-- The hops, and the rows of each report. -/
structure Scan where
  hops : List Hop
  reports : List (List Row)

/-- The body of the loop of `main`. -/
def scanTurn (s : Scan) (turn : Turn) : Option Scan := do
  let hops ← scanner o sinewave windowCoefs dcError s.hops turn.captures
  if turn.due then
    some
      { hops := hops.map fun hop => (csvDbm hop).2
        reports := s.reports ++ [hops.map fun hop => (csvDbm hop).1] }
  else
    some { s with hops := hops }

/-- The loop of `main`, from the hops that `frequency_range` leaves. -/
def scanTurns (hops : List Hop) (turns : List Turn) : Option Scan :=
  turns.foldlM (scanTurn o sinewave windowCoefs dcError) ⟨hops, []⟩

end Source

end LibRtlSdr.RtlPower
