import LibRtlSdr.RtlFmDeemph
import LibRtlSdr.RtlFmDemod
import LibRtlSdr.RtlFmPasses
import LibRtlSdr.RtlFmResample
import Mathlib.Data.Nat.Sqrt

namespace LibRtlSdr.RtlFm

/-!
# A block in `rtl_fm`: `full_demod`

The stages work in place, on `lowpassed` and then on `result`: the rate is lowered by
half-band passes or by the square window, quiet blocks are silenced, the selected mode
demodulates, and the audio is shortened, de-emphasised, centred and resampled.  What
every stage keeps from one block to the next stands in one record.
-/

open BoundedBuffer (window blit)
open CheckedInt (add? sub? mul? div?)

/-- The values of `mode_demod`. -/
inductive ModeDemod where
  | fm
  | raw
  | am
  | usb
  | lsb
deriving DecidableEq

/-- The parts that compute with floating point, and the methods of `fm_demod`. -/
structure FloatParts extends Discriminators where
  rms : List Int16 → Int

/-- What `full_demod` uses of `struct demod_state`, and the static `avg`. -/
structure FullDemod where
  lowpassed : Nat → Int16
  lpLen : Nat
  lpIHist : Nat → Taps
  lpQHist : Nat → Taps
  result : Nat → Int16
  droopIHist : Nat → Int16
  droopQHist : Nat → Int16
  resultLen : Nat
  rateOut : Int
  rateOut2 : Int
  nowR : Int
  nowJ : Int
  preR : Int
  preJ : Int
  prevIndex : Nat
  downsample : Nat
  postDownsample : Nat
  outputScale : Int
  squelchLevel : Int
  conseqSquelch : Int
  squelchHits : Int
  downsamplePasses : Nat
  compFirSize : Int
  customAtan : CustomAtan
  deemph : Bool
  deemphA : Int
  nowLpr : Int
  prevLprIndex : Int
  dcBlock : Bool
  dcAvg : Int
  modeDemod : ModeDemod
  avg : Int

/-! ## Source -/

/-- The state as `low_pass` sees it. -/
def FullDemod.filter (d : FullDemod) : DemodState where
  lowpassed := d.lowpassed
  lpLen := d.lpLen
  nowR := d.nowR
  nowJ := d.nowJ
  prevIndex := d.prevIndex
  downsample := d.downsample

/-- `low_pass(d)`. -/
def FullDemod.lowPass (d : FullDemod) : FullDemod :=
  let done := RtlFm.lowPass d.filter
  { d with
    lowpassed := done.lowpassed
    lpLen := done.lpLen
    nowR := done.nowR
    nowJ := done.nowJ
    prevIndex := done.prevIndex }

/-- The state as the half-band passes and the droop compensation see it. -/
def FullDemod.decimator (d : FullDemod) : Decimator where
  lowpassed := d.lowpassed
  lpLen := d.lpLen
  lpIHist := d.lpIHist
  lpQHist := d.lpQHist
  assigned := []
  downsamplePasses := d.downsamplePasses
  compFirSize := d.compFirSize
  droopIHist := d.droopIHist
  droopQHist := d.droopQHist
  sums := []

/-- The passes, and the droop compensation behind them. -/
def FullDemod.decimate (d : FullDemod) : FullDemod :=
  let done := RtlFm.decimate d.decimator
  { d with
    lowpassed := done.lowpassed
    lpLen := done.lpLen
    lpIHist := done.lpIHist
    lpQHist := done.lpQHist
    droopIHist := done.droopIHist
    droopQHist := done.droopQHist }

/-- The power squelch of `full_demod`. -/
def FullDemod.powerSquelch (f : FloatParts) (d : FullDemod) : FullDemod :=
  if d.squelchLevel = 0 then
    d
  else if f.rms (window d.lowpassed 0 d.lpLen) < d.squelchLevel then
    { d with
      squelchHits := d.squelchHits + 1
      lowpassed := blit 0 (List.replicate d.lpLen 0) d.lowpassed }
  else
    { d with squelchHits := 0 }

/-- The state as `fm_demod` sees it. -/
def FullDemod.demodulator (d : FullDemod) : Demodulator where
  lowpassed := d.lowpassed
  lpLen := d.lpLen
  result := d.result
  resultLen := d.resultLen
  customAtan := d.customAtan
  preR := d.preR
  preJ := d.preJ

/-- `fm_demod(d)`; without a sample it reads `lp[-2]` and `lp[-1]`. -/
def FullDemod.fmDemod (f : FloatParts) (d : FullDemod) : Option FullDemod :=
  if d.lpLen = 0 then
    none
  else
    let done := RtlFm.fmDemod f.toDiscriminators d.demodulator
    some {
      d with
      result := done.result
      resultLen := done.resultLen
      preR := done.preR
      preJ := done.preJ
    }

/-- The loops of `am_demod`, `usb_demod` and `lsb_demod`, one result for each sample. -/
def FullDemod.demodSamples
    (pcm : Int → Int → Option Int16)
    (d : FullDemod) :
    Option FullDemod := do
  let result ←
    (List.range ((d.lpLen + 1) / 2)).foldlM
      (fun result turn => do
        let value ← pcm (d.lowpassed (2 * turn)).toInt (d.lowpassed (2 * turn + 1)).toInt
        return Function.update result turn value)
      d.result
  return { d with result := result, resultLen := d.lpLen / 2 }

/-- `(int16_t)sqrt(pcm)`; the cast of a larger root is undefined. -/
def sqrtWord (pcm : Int) : Option Int16 :=
  if pcm.toNat.sqrt < 32768 then some (Int16.ofNat pcm.toNat.sqrt) else none

/-- `am_demod` on a sample. -/
def amSample (outputScale first second : Int) : Option Int16 := do
  let square ← mul? first first
  let other ← mul? second second
  let pcm ← add? square other
  let root ← sqrtWord pcm
  let scaled ← mul? root.toInt outputScale
  return Int16.ofInt scaled

/-- `usb_demod` on a sample. -/
def usbSample (outputScale first second : Int) : Option Int16 := do
  let pcm ← add? first second
  let scaled ← mul? (Int16.ofInt pcm).toInt outputScale
  return Int16.ofInt scaled

/-- `lsb_demod` on a sample. -/
def lsbSample (outputScale first second : Int) : Option Int16 := do
  let pcm ← sub? first second
  let scaled ← mul? (Int16.ofInt pcm).toInt outputScale
  return Int16.ofInt scaled

/-- `raw_demod(d)`. -/
def FullDemod.rawDemod (d : FullDemod) : FullDemod :=
  { d with
    result := blit 0 (window d.lowpassed 0 d.lpLen) d.result
    resultLen := d.lpLen }

/-- `d->mode_demod(d)`. -/
def FullDemod.demodulate (f : FloatParts) (d : FullDemod) : Option FullDemod :=
  match d.modeDemod with
  | .fm => d.fmDemod f
  | .raw => some d.rawDemod
  | .am => d.demodSamples (amSample d.outputScale)
  | .usb => d.demodSamples (usbSample d.outputScale)
  | .lsb => d.demodSamples (lsbSample d.outputScale)

/-- The loop of `low_pass_simple`, for so many groups. -/
def lowPassSimpleLoop (step : Nat) (signal2 : Nat → Int16) (groups : Nat) : Nat → Int16 :=
  (List.range groups).foldl
    (fun signal2 turn =>
      let sum := ((window signal2 (turn * step) step).map Int16.toInt).sum
      Function.update signal2 turn (Int16.ofInt sum))
    signal2

/-- `low_pass_simple(d->result, d->result_len, d->post_downsample)`. -/
def FullDemod.lowPassSimple (d : FullDemod) : FullDemod :=
  let groups := (d.resultLen + d.postDownsample - 1) / d.postDownsample
  let signal2 := lowPassSimpleLoop d.postDownsample d.result groups
  { d with
    result := Function.update signal2 (groups + 1) (signal2 groups)
    resultLen := d.resultLen / d.postDownsample }

/-- `deemph_filter(d)`. -/
def FullDemod.deemphFilter (d : FullDemod) : Option FullDemod := do
  let done ← RtlFm.deemphFilter ⟨d.result, d.resultLen, d.deemphA, d.avg, []⟩
  return { d with result := done.result, avg := done.avg }

/-- `dc_block_filter(d)`; without a result it divides by zero. -/
def FullDemod.dcBlockFilter (d : FullDemod) : Option FullDemod :=
  if d.resultLen = 0 then
    none
  else
    let sum := ((window d.result 0 d.resultLen).map Int16.toInt).sum
    let avg := (sum.tdiv d.resultLen + d.dcAvg * 9).tdiv 10
    some {
      d with
      result :=
        blit 0
          ((window d.result 0 d.resultLen).map
            (fun sample => Int16.ofInt (sample.toInt - avg)))
          d.result
      dcAvg := avg
    }

/-- `low_pass_real(d)`. -/
def FullDemod.lowPassReal (d : FullDemod) : Option FullDemod := do
  let done ←
    RtlFm.lowPassReal
      ⟨⟨d.rateOut, d.rateOut2, d.nowLpr, d.prevLprIndex⟩, d.result, d.resultLen⟩
  return {
    d with
    result := done.result
    resultLen := done.resultLen
    nowLpr := done.nowLpr
    prevLprIndex := done.prevLprIndex
  }

/-- The first half of `full_demod`, up to the samples that are demodulated. -/
def FullDemod.lowered (f : FloatParts) (d : FullDemod) : FullDemod :=
  let lowered := if d.downsamplePasses ≠ 0 then d.decimate else d.lowPass
  lowered.powerSquelch f

/-- The stages of `full_demod` behind the demodulation. -/
def FullDemod.audio (d : FullDemod) : Option FullDemod := do
  let shortened := if 1 < d.postDownsample then d.lowPassSimple else d
  let smoothed ← if d.deemph then shortened.deemphFilter else some shortened
  let centred ← if d.dcBlock then smoothed.dcBlockFilter else some smoothed
  if 0 < d.rateOut2 then centred.lowPassReal else some centred

/-- `full_demod`. -/
def FullDemod.fullDemod (f : FloatParts) (d : FullDemod) : Option FullDemod := do
  let demodulated ← (d.lowered f).demodulate f
  if d.modeDemod = .raw then
    return demodulated
  else
    demodulated.audio

/-- `rtlsdr_callback` on all of `struct demod_state`. -/
def FullDemod.receive
    (s : DongleState)
    (d : FullDemod)
    (block : Block) :
    DongleState × FullDemod :=
  let called := rtlsdrCallback s d.filter block
  (called.1, { d with lowpassed := called.2.lowpassed, lpLen := called.2.lpLen })

/-- `demod_init`; what it leaves out is zero in a global variable. -/
def demodInit : FullDemod where
  lowpassed := fun _ => 0
  lpLen := 0
  lpIHist := fun _ => Taps.zero
  lpQHist := fun _ => Taps.zero
  result := fun _ => 0
  droopIHist := fun _ => 0
  droopQHist := fun _ => 0
  resultLen := 0
  rateOut := 24000
  rateOut2 := -1
  nowR := 0
  nowJ := 0
  preR := 0
  preJ := 0
  prevIndex := 0
  downsample := 0
  postDownsample := 1
  outputScale := 0
  squelchLevel := 0
  conseqSquelch := 10
  squelchHits := 11
  downsamplePasses := 0
  compFirSize := 0
  customAtan := .std
  deemph := false
  deemphA := 0
  nowLpr := 0
  prevLprIndex := 0
  dcBlock := false
  dcAvg := 0
  modeDemod := .fm
  avg := 0

end LibRtlSdr.RtlFm
