import LibRtlSdr.FcTuners

namespace LibRtlSdr

open DriverProgram ByteChip

/-!
# The gains of the FC0012 and FC0013

Each sets the lower five bits of one register to a code for the gain, and leaves
the upper three as they are.
-/

namespace FcTuner

variable {before : Chip}

/-- The chip holds a code in the lower five bits of a register. -/
def HoldsCode (reg code : UInt8) (chip : Chip) : Prop :=
  chip.Answering ∧ chip.registers reg &&& 0x1f = code

/-- A code of five bits, written below whatever the register was taken to hold. -/
theorem writereg_code
    (answering : before.Answering)
    (reg old : UInt8)
    {code : UInt8}
    (small : code &&& 0x1f = code) :
    Returns (writereg reg (old &&& 0xe0 ||| code)).run before (.ok ())
      (HoldsCode reg code) := by
  have merged : old &&& 0xe0 ||| code = old &&& ~~~0x1f ||| code &&& 0x1f := by
    rw [small]
    rfl
  apply (writereg_answered answering reg _).mono
  rintro after ⟨answering, registers⟩
  refine ⟨answering, ?_⟩
  rw [registers, Function.update_self, merged, field_and_mask, small]

end FcTuner

namespace Fc0012

open FcTuner

variable {before : Chip}

/-- The gains of `fc0012_set_gain`, in pairs of a gain and its code. -/
def lnaGains : List (Int × UInt8) :=
  [(-99, 0x02), (-40, 0x00), (71, 0x08), (179, 0x17), (192, 0x10)]

theorem gainBits_small
    (gain : Int) :
    gainBits gain &&& 0x1f = gainBits gain := by
  unfold gainBits
  split_ifs <;>
    decide

theorem setGain_returns
    (answering : before.Answering)
    (gain : Int) :
    Returns (setGain gain).result before 0
      (HoldsCode 0x13 (gainBits gain)) := by
  apply Returns.result
  apply (readreg_answered answering 0x13).runOutcome.runBind
  intro middle answering
  exact writereg_code answering 0x13 _ (gainBits_small gain)

end Fc0012

namespace Fc0013

open FcTuner

variable {before : Chip}

/-- What the loop finds has five bits if all the table has. -/
theorem lnaBits_small
    (gain : Int)
    {entries : List (Int × UInt8)}
    (small : ∀ entry ∈ entries, entry.2 &&& 0x1f = entry.2) :
    lnaBits gain entries &&& 0x1f = lnaBits gain entries := by
  induction entries with
  | nil =>
      rw [lnaBits]
      decide
  | cons first rest inductionHypothesis =>
      have head := small first List.mem_cons_self
      have tail :=
        inductionHypothesis
          (fun entry member => small entry (List.mem_cons_of_mem _ member))
      cases rest with
      | nil =>
          exact head
      | cons second others =>
          rw [lnaBits]
          · split
            · exact head
            · exact tail
          · exact List.cons_ne_nil _ _

theorem setLnaGain_returns
    (answering : before.Answering)
    (gain : Int) :
    Returns (setLnaGain gain) before 0
      (HoldsCode 0x14 (lnaBits gain lnaGains)) := by
  have small :
      lnaBits gain lnaGains &&& 0x1f = lnaBits gain lnaGains :=
    lnaBits_small gain (by decide)
  apply (readreg_answered answering 0x14).bind
  intro middle answering
  apply (writereg_code answering 0x14 _ small).result.bind
  intro after holdsCode
  exact Returns.pure holdsCode

/-- The gain mode can be chosen. -/
theorem setGainMode_returns
    (answering : before.Answering)
    (manual : Bool) :
    Returns (setGainMode manual) before 0 Chip.Answering := by
  apply (readreg_answered answering 0x0d).bind
  intro middle answering
  apply (writereg_answered answering 0x0d _).result.bind
  rintro middle ⟨answering, _⟩
  apply (writereg_answered answering 0x13 0x0a).result.bind
  rintro after ⟨answering, _⟩
  exact Returns.pure answering

end Fc0013

end LibRtlSdr
