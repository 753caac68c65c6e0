import LibRtlSdr.R82xxDivisions
import LibRtlSdr.FcDivisions
import LibRtlSdr.RtlSdrExcursion

namespace LibRtlSdr.RtlSdr

open DriverProgram PartialRun

/-!
# The divisions while tuning

The tuners divide by what `rtlsdr_get_tuner_clock` returns, and neither
`rtlsdr_set_xtal_freq` nor `rtlsdr_set_freq_correction` limits the tuner clock.
-/

/-- `rtlsdr_open` on an answering stick with an R820T, and a tuner clock of 40 MHz. -/
def openedAndClocked : Program (Device Stick) (Int32 × Int32) := do
  let opened ← openFound
  let answer ← setXtalFreq 28800000 40000000
  return (opened, answer)

end LibRtlSdr.RtlSdr
