import Mathlib.Data.List.Basic
import Mathlib.Logic.Function.Basic

namespace LibRtlSdr.RtlAdsb

/-!
# The ADS-B decoder

`rtl_adsb` turns a buffer of I/Q bytes into magnitudes, `manchester` writes the
bits that it decodes and the marks of what it has done over the magnitudes, and
`messages` looks for frames in the result.  No value of the 16 bits of a cell
overflows, so that a cell holds a number here.

Beside what the program has, a scan keeps the runs of bits that it has decoded,
and a frame the cells that it was collected from.
-/

/-- The 16 bit cells of the buffer. -/
abbrev Buffer :=
  Nat → Nat

/-- A byte of a frame. -/
abbrev Byte :=
  BitVec 8

/-- `preamble_len`. -/
def preambleLen : Nat := 16

/-- `long_frame`. -/
def longFrame : Nat := 112

/-- `short_frame`. -/
def shortFrame : Nat := 56

/-- `MESSAGEGO`. -/
def messagego : Nat := 253

/-- `OVERWRITE`. -/
def overwrite : Nat := 254

/-- `BADSAMPLE`. -/
def badsample : Nat := 255

/-- The `quality` in tenths and the `allowed_errors` of the command line. -/
structure Options where
  quality : Int
  allowedErrors : Int

/-! ## Magnitudes -/

/-- `abs8`. -/
def abs8 (x : Nat) : Nat :=
  if x ≥ 127 then x - 127 else 127 - x

/-- `squares`. -/
def squares (i : UInt8) : Nat :=
  abs8 i.toNat * abs8 i.toNat

/-- `magnitute`: the cells, for each pair of bytes. -/
def magnitute (buf : Nat → UInt8) : Buffer :=
  fun cell => squares (buf (2 * cell)) + squares (buf (2 * cell + 1))

/-- A value that `magnitute` writes into a cell. -/
structure Magnitude where
  value : Nat
  isSum : ∃ i q, value = squares i + squares q

/-! ## Bits -/

/-- `single_manchester`. -/
def singleManchester (quality : Int) (a b c d : Nat) : Nat :=
  let bitP := decide (a > b)
  let bit := decide (c > d)
  if quality = 0 then
    bit.toNat
  else if quality = 5 then
    if bit ∧ bitP ∧ b > c then
      badsample
    else if ¬ bit ∧ ¬ bitP ∧ b < c then
      badsample
    else
      bit.toNat
  else if quality = 10 then
    if bit ∧ bitP ∧ c > b then
      1
    else if bit ∧ ¬ bitP ∧ d < b then
      1
    else if ¬ bit ∧ bitP ∧ d > b then
      0
    else if ¬ bit ∧ ¬ bitP ∧ c < b then
      0
    else
      badsample
  else if bit ∧ bitP ∧ c > b ∧ d < a then
    1
  else if bit ∧ ¬ bitP ∧ c > a ∧ d < b then
    1
  else if ¬ bit ∧ bitP ∧ c < a ∧ d > b then
    0
  else if ¬ bit ∧ ¬ bitP ∧ c < b ∧ d > a then
    0
  else
    badsample

/-- The samples of a preamble that are high. -/
def highSamples : List Nat :=
  [0, 2, 7, 9]

/-- The loop of `preamble`, with the samples that are left. -/
def preambleLoop
    (buf : Buffer)
    (i : Nat) :
    (left i2 low high : Nat) →
    Bool
  | 0, _, _, _ =>
      true
  | left + 1, i2, low, high =>
      let high' := if i2 ∈ highSamples then buf (i + i2) else high
      let low' := if i2 ∈ highSamples then low else buf (i + i2)
      if high' ≤ low' then
        false
      else
        preambleLoop buf i left (i2 + 1) low' high'

/-- `preamble`. -/
def preamble (buf : Buffer) (i : Nat) : Bool :=
  preambleLoop buf i preambleLen 0 0 65535

/-- Bits that `manchester` has decoded one after the other. -/
structure Run where
  /-- The cell of the first bit. -/
  start : Nat
  bits : Nat
  /-- Does the run follow a preamble? -/
  preambled : Bool
  deriving Repr, DecidableEq

/-- The state of `manchester`, and the runs so far. -/
structure Scan where
  buf : Buffer
  i : Nat
  a : Nat
  b : Nat
  runs : List Run

/-- The cells from `i` on are set to a value. -/
def fill (buf : Buffer) (i count value : Nat) : Buffer :=
  fun cell => if i ≤ cell ∧ cell < i + count then value else buf cell

/-- The loop that finds a preamble, with the cells that are left, and if it finds one. -/
def search : (left : Nat) → Scan → Scan × Bool
  | 0, scan =>
      (scan, false)
  | left + 1, scan =>
      if preamble scan.buf scan.i then
        ({ scan with
          a := scan.buf scan.i
          b := scan.buf (scan.i + 1)
          buf := fill scan.buf scan.i preambleLen messagego
          i := scan.i + preambleLen }, true)
      else
        search left { scan with i := scan.i + 1 }

/-- The state of the loop that marks bits. -/
structure Marking where
  buf : Buffer
  i : Nat
  a : Nat
  b : Nat
  i2 : Nat
  errors : Int

/-- A bit is marked, and what `a` and `b` hold then. -/
def Marking.store
    (marking : Marking)
    (bit a b : Nat)
    (errors : Int) : Marking where
  buf :=
    Function.update
      (Function.update
        (Function.update marking.buf (marking.i + 1) overwrite)
        marking.i overwrite)
      marking.i2 bit
  i := marking.i + 2
  a := a
  b := b
  i2 := marking.i2 + 1
  errors := errors

/-- The encoding breaks. -/
def Marking.broken (marking : Marking) : Marking where
  buf := Function.update marking.buf marking.i2 badsample
  i := marking.i
  a := marking.buf marking.i
  b := marking.buf (marking.i + 1)
  i2 := marking.i2
  errors := marking.errors + 1

/-- The loop that marks bits until the encoding breaks; `left` bounds its rounds. -/
def mark
    (options : Options)
    (len : Nat) :
    (left : Nat) →
    Marking →
    Marking
  | 0, marking =>
      marking
  | left + 1, marking =>
      if marking.i < len - 1 then
        let bit :=
          singleManchester options.quality marking.a marking.b
            (marking.buf marking.i) (marking.buf (marking.i + 1))
        let a := marking.buf marking.i
        let b := marking.buf (marking.i + 1)
        if bit = badsample then
          if marking.errors + 1 > options.allowedErrors then
            marking.broken
          else
            -- these don't have to match the bit
            mark options len left
              (marking.store (decide (a > b)).toNat 0 65535
                (marking.errors + 1))
        else
          mark options len left (marking.store bit a b marking.errors)
      else
        marking

/-- The marking begins where the search has ended. -/
def Scan.marking (scan : Scan) : Marking where
  buf := scan.buf
  i := scan.i
  a := scan.a
  b := scan.b
  i2 := scan.i
  errors := 0

/-- The scan goes on where the marking has ended. -/
def Marking.scan (marking : Marking) (runs : List Run) : Scan where
  buf := marking.buf
  i := marking.i
  a := marking.a
  b := marking.b
  runs := runs

/-- One round of the loop of `manchester`. -/
def pass (options : Options) (len : Nat) (scan : Scan) : Scan :=
  let found := search (len - preambleLen - scan.i) scan
  let marked := mark options len len found.1.marking
  marked.scan
    (found.1.runs ++ [⟨found.1.i, marked.i2 - found.1.i, found.2⟩])

/-- `manchester`, if it ends within so many rounds. -/
def manchesterLoop
    (options : Options)
    (len : Nat) :
    (rounds : Nat) →
    Scan →
    Option Scan
  | 0, scan =>
      if scan.i < len - 1 then none else some scan
  | rounds + 1, scan =>
      if scan.i < len - 1 then
        manchesterLoop options len rounds (pass options len scan)
      else
        some scan

/-- The state that `manchester` begins with. -/
def Scan.start (buf : Buffer) : Scan where
  buf := buf
  i := 0
  a := 0
  b := 0
  runs := []

/-- `manchester` ends in this state. -/
def Manchester
    (options : Options)
    (len : Nat)
    (buf : Buffer)
    (scan : Scan) : Prop :=
  ∃ rounds, manchesterLoop options len rounds (.start buf) = some scan

/-! ## Messages -/

/-- The state of the loop that collects a frame; `frame` is `adsb_frame`. -/
structure Collecting where
  i : Nat
  dataI : Nat
  frameLen : Nat
  frame : List Byte

/-- The loop that collects a frame; `left` bounds its rounds. -/
def collect
    (buf : Buffer)
    (len : Nat) :
    (left : Nat) →
    Collecting →
    Collecting
  | 0, collecting =>
      collecting
  | left + 1, collecting =>
      if collecting.i < len ∧ buf collecting.i ≤ 1 ∧
          collecting.dataI < collecting.frameLen then
        let index := collecting.dataI / 8
        let shift := 7 - collecting.dataI % 8
        let frame :=
          if buf collecting.i ≠ 0 then
            collecting.frame.set index
              (collecting.frame.getD index 0 ||| 1 <<< shift)
          else
            collecting.frame
        if collecting.dataI = 7 ∧ frame.getD 0 0 = 0 then
          { collecting with frame := frame }
        else
          collect buf len left
            { i := collecting.i + 1
              dataI := collecting.dataI + 1
              frameLen :=
                if collecting.dataI = 7 then
                  if frame.getD 0 0 &&& 0x80 ≠ 0 then longFrame else shortFrame
                else
                  collecting.frameLen
              frame := frame }
      else
        collecting

/-- A call of `display`, with the cells that the frame was collected from. -/
structure Shown where
  frame : List Byte
  len : Nat
  first : Nat
  bits : Nat
  deriving Repr, DecidableEq

/-- A frame is begun. -/
def Collecting.begin (i : Nat) : Collecting where
  i := i
  dataI := 0
  frameLen := longFrame
  frame := List.replicate 14 0

/-- The loop of `messages` from a cell on; `left` bounds its rounds. -/
def messagesLoop (buf : Buffer) (len : Nat) : (left i : Nat) → List Shown
  | 0, _ =>
      []
  | left + 1, i =>
      if i < len then
        if buf i > 1 then
          messagesLoop buf len left (i + 1)
        else
          let collected := collect buf len longFrame (.begin i)
          if collected.dataI < collected.frameLen - 1 then
            messagesLoop buf len left (collected.i + 1)
          else
            ⟨collected.frame, collected.frameLen, i, collected.dataI⟩ ::
              messagesLoop buf len left (collected.i + 1)
      else
        []

/-- `messages`: its calls of `display`. -/
def messages (buf : Buffer) (len : Nat) : List Shown :=
  messagesLoop buf len len 0

end LibRtlSdr.RtlAdsb
