import LibRtlSdr.R82xxTuner

namespace LibRtlSdr.R82xx

open DriverProgram MaskedWrites

/-!
# The register accesses of the R82xx tuner

A function of the tuner is a program over its state.  The accesses of a program
say of which register accesses it is made, in which order and under which
conditions; that they are those of the program is checked by their type.
-/

/-- The register accesses that a program is made of. -/
inductive Accesses : {Value : Type} → Checked Priv Value → Type 1
  | pure {Value : Type} (given : Value) :
      Accesses (pure given)
  | throw {Value : Type} (code : Int32) :
      Accesses (throw code : Checked Priv Value)
  | fault {Value : Type} (abort : Abort) :
      Accesses (Checked.fault abort : Checked Priv Value)
  | get :
      Accesses get
  /-- A field beside the registers is noted. -/
  | note
      (change : Priv → Priv)
      (spares :
        ∀ priv,
          (change priv).regs = priv.regs ∧ (change priv).bus = priv.bus) :
      Accesses (modify change)
  /-- The shadow registers are stored without a transfer. -/
  | shadowStore (reg : Nat) (val : List Byte) :
      Accesses (modify (R82xx.shadowStore reg val))
  | writeRegMask (reg : Nat) (val bitMask : Byte) :
      Accesses (writeRegMask reg val bitMask)
  | write (reg : Nat) (val : List Byte) :
      Accesses (write reg val)
  | read (reg : Nat) :
      Accesses (read reg)
  | bind
      {Value Result : Type}
      {program : Checked Priv Value}
      {next : Value → Checked Priv Result}
      (first : Accesses program)
      (second : ∀ value, Accesses (next value)) :
      Accesses (program >>= next)
  | outcome
      {Value : Type}
      {program : Checked Priv Value}
      (accesses : Accesses program) :
      Accesses program.outcome
  | ite
      {Value : Type}
      {condition : Prop}
      [Decidable condition]
      {first second : Checked Priv Value}
      (ifTrue : Accesses first)
      (ifFalse : Accesses second) :
      Accesses (if condition then first else second)

namespace Accesses

/-! ## The functions -/

def writeMasks :
    (writes : List (MaskedWrite Nat 8)) →
    Accesses (R82xx.writeMasks writes)
  | [] =>
      .pure ()
  | first :: rest =>
      .bind (.writeRegMask first.reg first.val first.mask) fun _ =>
        writeMasks rest

def writeRegs :
    (writes : List (Nat × Byte)) →
    Accesses (R82xx.writeRegs writes)
  | [] =>
      .pure ()
  | first :: rest =>
      .bind (.write first.1 [first.2]) fun _ =>
        writeRegs rest

def setMux (freq : UInt32) : Accesses (R82xx.setMux freq) :=
  .bind (writeMasks _) fun _ =>
    .bind (.write 0x1b _) fun _ =>
      .bind .get fun _ =>
        writeMasks _

def waitForLock : Accesses R82xx.waitForLock :=
  .bind (.read 0x00) fun _ =>
    .ite (.pure _)
      (.bind (writeMasks _) fun _ =>
        .bind (.read 0x00) fun _ =>
          .pure _)

def sdmLoop
    (pllRefKhz : UInt32) :
    (shifts : Nat) →
    (fra : UInt32) →
    (sdm : UInt16) →
    Accesses (R82xx.sdmLoop pllRefKhz shifts fra sdm)
  | 0, _, _ =>
      .ite (.fault _) (.pure _)
  | shifts + 1, _, _ =>
      .ite
        (.ite
          (.ite (.pure _) (sdmLoop pllRefKhz shifts _ _))
          (sdmLoop pllRefKhz shifts _ _))
        (.pure _)

def setPll (freq : UInt32) : Accesses (R82xx.setPll freq) :=
  .bind .get fun _ =>
    .bind (writeMasks _) fun _ =>
      .bind (.read 0x00) fun _ =>
        .bind (writeMasks _) fun _ =>
          .ite (.fault _)
            (.ite (.throw _)
              (.bind (.write 0x14 _) fun _ =>
                .bind (writeMasks _) fun _ =>
                  .bind (sdmLoop _ _ _ _) fun _ =>
                    .bind (.write 0x16 _) fun _ =>
                      .bind (.write 0x15 _) fun _ =>
                        .bind waitForLock fun _ =>
                          .ite
                            (.bind (.note _ fun _ => ⟨rfl, rfl⟩) fun _ =>
                              writeMasks _)
                            (.note _ fun _ => ⟨rfl, rfl⟩)))

def sysfreqSel
    (freq : UInt32)
    (type : TunerUse)
    (delsys : DeliverySystem) :
    Accesses (R82xx.sysfreqSel freq type delsys) :=
  .bind (writeMasks _) fun _ =>
    .bind (.write 0x0d _) fun _ =>
      .bind (.write 0x0e _) fun _ =>
        .bind (.note _ fun _ => ⟨rfl, rfl⟩) fun _ =>
          .bind (writeMasks _) fun _ =>
            .ite (writeMasks _) (writeMasks _)

def calibrationRound : Accesses R82xx.calibrationRound :=
  .bind (writeMasks _) fun _ =>
    .bind (setPll _) fun _ =>
      .bind .get fun _ =>
        .ite
          (.bind (writeMasks _) fun _ =>
            .bind (.read 0x00) fun _ =>
              .bind (.note _ fun _ => ⟨rfl, rfl⟩) fun _ =>
                .pure _)
          (.pure _)

def calibrate : Accesses R82xx.calibrate :=
  .bind calibrationRound fun code =>
    match code with
    | none => .pure _
    | some _ =>
        .ite (.pure _)
          (.bind calibrationRound fun again =>
            match again with
            | none => .pure _
            | some _ => .pure _)

def finishTvStandard : Accesses R82xx.finishTvStandard :=
  .bind calibrate fun _ =>
    .ite
      (.bind (.note _ fun _ => by split <;> exact ⟨rfl, rfl⟩) fun _ =>
        .bind .get fun _ =>
          writeMasks _)
      (.pure _)

def setTvStandard (type : TunerUse) : Accesses (R82xx.setTvStandard type) :=
  .bind (.shadowStore 0x05 initArray) fun _ =>
    .bind (writeMasks _) fun _ =>
      .bind (writeMasks _) fun _ =>
        .bind (.note _ fun _ => ⟨rfl, rfl⟩) fun _ =>
          finishTvStandard

def setGain
    (setManualGain : Bool)
    (gain : Int) :
    Accesses (R82xx.setGain setManualGain gain) :=
  .ite
    (.bind (writeMasks _) fun _ =>
      .bind (.read 0x00) fun _ =>
        writeMasks _)
    (writeMasks _)

def setBandwidth (bw : Int) : Accesses (R82xx.setBandwidth bw) :=
  .bind (.note _ fun _ => ⟨rfl, rfl⟩) fun _ =>
    .bind (writeMasks _) fun _ =>
      .bind .get fun _ =>
        .pure _

def selectInput (freq : UInt32) : Accesses (R82xx.selectInput freq) :=
  .bind .get fun _ =>
    .ite
      (.bind (writeMasks _) fun _ =>
        .ite
          (.bind (.note _ fun _ => ⟨rfl, rfl⟩) fun _ =>
            writeMasks _)
          (.pure _))
      (.ite
        (.bind (.note _ fun _ => ⟨rfl, rfl⟩) fun _ =>
          writeMasks _)
        (.pure _))

def setFreq (freq : UInt32) : Accesses (R82xx.setFreq freq) :=
  .bind .get fun _ =>
    .bind (setMux _) fun _ =>
      .bind (setPll _) fun _ =>
        .bind .get fun _ =>
          .ite (selectInput freq) (.pure _)

def standby : Accesses R82xx.standby :=
  .bind .get fun _ =>
    .ite (writeRegs _) (.pure _)

def init : Accesses R82xx.init :=
  .bind (.note _ fun _ => ⟨rfl, rfl⟩) fun _ =>
    .bind (.outcome (.write 0x05 initArray)) fun _ =>
      .bind (setTvStandard _) fun _ =>
        .bind (.outcome (sysfreqSel _ _ _)) fun selected =>
          .bind (.note _ fun _ => ⟨rfl, rfl⟩) fun _ =>
            match selected with
            | .error _ => .throw _
            | .ok _ => .pure _

/-! ## The masked writes of a program -/

/--
The program performs a masked write when it starts in the state `before`; the
write begins in the state `start` and ends in the state `finish`.
-/
def Performs :
    {Value : Type} →
    {program : Checked Priv Value} →
    Accesses program →
    (before : Priv) →
    (made : MaskedWrite Nat 8) →
    (start finish : Priv) →
    Prop
  | _, _, .writeRegMask reg val bitMask, before, made, start, finish =>
      made = ⟨reg, val, bitMask⟩ ∧ start = before ∧
        ∃ answer,
          Yields (R82xx.writeRegMask reg val bitMask).run start answer finish
  | _, _, @bind _ _ program _ first second, before, made, start, finish =>
      first.Performs before made start finish ∨
        ∃ value middle,
          Yields program.run before (.ok value) middle ∧
            (second value).Performs middle made start finish
  | _, _, .outcome accesses, before, made, start, finish =>
      accesses.Performs before made start finish
  | _, _, @ite _ condition _ _ _ ifTrue ifFalse,
      before, made, start, finish =>
      (condition ∧ ifTrue.Performs before made start finish) ∨
        (¬ condition ∧ ifFalse.Performs before made start finish)
  | _, _, _, _, _, _, _ =>
      False

/-- No shadow registers are stored without a transfer. -/
def Steady :
    {Value : Type} →
    {program : Checked Priv Value} →
    Accesses program →
    Prop
  | _, _, .shadowStore _ _ =>
      False
  | _, _, .bind first second =>
      first.Steady ∧ ∀ value, (second value).Steady
  | _, _, .outcome accesses =>
      accesses.Steady
  | _, _, @ite _ _ _ _ _ ifTrue ifFalse =>
      ifTrue.Steady ∧ ifFalse.Steady
  | _, _, _ =>
      True

section Steadiness

theorem writeMasks_steady
    (writes : List (MaskedWrite Nat 8)) :
    (writeMasks writes).Steady := by
  induction writes with
  | nil =>
      exact True.intro
  | cons first rest inductionHypothesis =>
      exact ⟨True.intro, fun _ => inductionHypothesis⟩

theorem writeRegs_steady
    (writes : List (Nat × Byte)) :
    (writeRegs writes).Steady := by
  induction writes with
  | nil =>
      exact True.intro
  | cons first rest inductionHypothesis =>
      exact ⟨True.intro, fun _ => inductionHypothesis⟩

theorem setMux_steady (freq : UInt32) : (setMux freq).Steady :=
  ⟨writeMasks_steady _, fun _ =>
    ⟨True.intro, fun _ => ⟨True.intro, fun _ => writeMasks_steady _⟩⟩⟩

theorem waitForLock_steady : waitForLock.Steady :=
  ⟨True.intro, fun _ =>
    ⟨True.intro, writeMasks_steady _, fun _ =>
      ⟨True.intro, fun _ => True.intro⟩⟩⟩

theorem sdmLoop_steady
    (pllRefKhz : UInt32)
    (shifts : Nat)
    (fra : UInt32)
    (sdm : UInt16) :
    (sdmLoop pllRefKhz shifts fra sdm).Steady := by
  induction shifts generalizing fra sdm with
  | zero =>
      exact ⟨True.intro, True.intro⟩
  | succ shifts inductionHypothesis =>
      exact ⟨⟨⟨True.intro, inductionHypothesis _ _⟩,
        inductionHypothesis _ _⟩, True.intro⟩

theorem setPll_steady (freq : UInt32) : (setPll freq).Steady := by
  refine ⟨True.intro, fun _ => ⟨writeMasks_steady _, fun _ =>
    ⟨True.intro, fun _ => ⟨writeMasks_steady _, fun _ =>
      ⟨True.intro, True.intro, ?_⟩⟩⟩⟩⟩
  refine ⟨True.intro, fun _ => ⟨writeMasks_steady _, fun _ =>
    ⟨sdmLoop_steady _ _ _ _, fun _ => ⟨True.intro, fun _ =>
      ⟨True.intro, fun _ => ⟨waitForLock_steady, fun _ => ?_⟩⟩⟩⟩⟩⟩
  exact ⟨⟨True.intro, fun _ => writeMasks_steady _⟩, True.intro⟩

theorem sysfreqSel_steady
    (freq : UInt32)
    (type : TunerUse)
    (delsys : DeliverySystem) :
    (sysfreqSel freq type delsys).Steady :=
  ⟨writeMasks_steady _, fun _ => ⟨True.intro, fun _ =>
    ⟨True.intro, fun _ => ⟨True.intro, fun _ =>
      ⟨writeMasks_steady _, fun _ =>
        ⟨writeMasks_steady _, writeMasks_steady _⟩⟩⟩⟩⟩⟩

theorem calibrationRound_steady : calibrationRound.Steady := by
  refine ⟨writeMasks_steady _, fun _ => ⟨setPll_steady _, fun _ =>
    ⟨True.intro, fun _ => ⟨?_, True.intro⟩⟩⟩⟩
  exact ⟨writeMasks_steady _, fun _ => ⟨True.intro, fun _ =>
    ⟨True.intro, fun _ => True.intro⟩⟩⟩

theorem calibrate_steady : calibrate.Steady := by
  refine ⟨calibrationRound_steady, fun code => ?_⟩
  cases code with
  | none =>
      exact True.intro
  | some code =>
      refine ⟨True.intro, calibrationRound_steady, fun again => ?_⟩
      cases again with
      | none =>
          exact True.intro
      | some again =>
          exact True.intro

theorem finishTvStandard_steady : finishTvStandard.Steady :=
  ⟨calibrate_steady, fun _ =>
    ⟨⟨True.intro, fun _ => ⟨True.intro, fun _ => writeMasks_steady _⟩⟩,
      True.intro⟩⟩

theorem setGain_steady
    (setManualGain : Bool)
    (gain : Int) :
    (setGain setManualGain gain).Steady :=
  ⟨⟨writeMasks_steady _, fun _ =>
      ⟨True.intro, fun _ => writeMasks_steady _⟩⟩,
    writeMasks_steady _⟩

theorem setBandwidth_steady (bw : Int) : (setBandwidth bw).Steady :=
  ⟨True.intro, fun _ => ⟨writeMasks_steady _, fun _ =>
    ⟨True.intro, fun _ => True.intro⟩⟩⟩

theorem selectInput_steady (freq : UInt32) : (selectInput freq).Steady := by
  refine ⟨True.intro, fun _ => ⟨⟨writeMasks_steady _, fun _ => ?_⟩, ?_⟩⟩
  · exact ⟨⟨True.intro, fun _ => writeMasks_steady _⟩, True.intro⟩
  · exact ⟨⟨True.intro, fun _ => writeMasks_steady _⟩, True.intro⟩

theorem setFreq_steady (freq : UInt32) : (setFreq freq).Steady :=
  ⟨True.intro, fun _ => ⟨setMux_steady _, fun _ =>
    ⟨setPll_steady _, fun _ => ⟨True.intro, fun _ =>
      ⟨selectInput_steady freq, True.intro⟩⟩⟩⟩⟩

theorem standby_steady : standby.Steady :=
  ⟨True.intro, fun _ => ⟨writeRegs_steady _, True.intro⟩⟩

end Steadiness

end Accesses

end LibRtlSdr.R82xx
