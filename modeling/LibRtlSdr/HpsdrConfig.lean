import Mathlib.Data.List.Basic

namespace LibRtlSdr.Hpsdr

/-!
# Constants and tables of the HPSDR simulator

The numbers that `rtl_hpsdr.h` and the head of `rtl_hpsdr.c` fix: buffer sizes,
the limit on the number of receivers, and the three tables that describe a
frame by the number of receivers it carries.
-/

/-- `MAX_RCVRS`. -/
def maxRcvrs : Nat := 7

/-- `HPSDR_FRAME_LEN`. -/
def hpsdrFrameLen : Nat := 1032

/-- `DOWNSAMPLE_192`, the downsample value used to get 192 kHz. -/
def downsample192 : Nat := 8

/-- `RTL_READ_COUNT`, the bytes of one dongle buffer. -/
def rtlReadCount : Nat := 2048 * downsample192

/-- `IQ_FRAME_DATA_LEN`. -/
def iqFrameDataLen : Nat := 63

/-- `COEFF3072_H_16_LENGTH`, the taps of the first decimation pass. -/
def coeff3072H16Length : Nat := 16

/-- `COEFF1536_H_32_LENGTH`, the taps of the second decimation pass. -/
def coeff1536H32Length : Nat := 32

/-- `nsamps_packet[row]`: samples per receiver in a frame of `row + 1` receivers. -/
def nsampsPacket (row : Nat) : Nat :=
  [126, 72, 50, 38, 30, 26, 22, 20].getD row 0

/-- `frame_offset1[row]`: end of the lower bank of a frame of `row + 1` receivers. -/
def frameOffset1 (row : Nat) : Nat :=
  [520, 520, 516, 510, 496, 510, 500, 516].getD row 0

/-- `frame_offset2[row]`: end of the upper bank of a frame of `row + 1` receivers. -/
def frameOffset2 (row : Nat) : Nat :=
  [1032, 1032, 1028, 1022, 1008, 1022, 1012, 1028].getD row 0

/-- The values that `mcb.output_rate` takes. -/
inductive OutputRate where
  | hz48000
  | hz96000
  | hz192000
  | hz384000
  deriving Repr, DecidableEq

/--
`mcb.total_num_rcvrs` as `main` leaves it: at least one dongle was found, and
the count was cut to `MAX_RCVRS`.
-/
structure RcvrTotal where
  count : Nat
  pos : 0 < count
  leMax : count ≤ maxRcvrs

end LibRtlSdr.Hpsdr
