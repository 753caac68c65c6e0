import LibRtlSdr.BoundedBuffer
import LibRtlSdr.RtlAdsbMessages
import Mathlib.Logic.Function.Iterate

namespace LibRtlSdr.RtlAdsb

/-!
# Every access of the ADS-B decoder is inside its buffer

The decoder once more, with each read and each write of the buffer and of
`adsb_frame` checked: an access outside has no result, and neither has a loop that
has not ended when its rounds are used up.  Where there is a result, it is that of
the decoder without the checks.
-/

open BoundedBuffer (get? put?)

/-! ## Source -/

/-- The bytes of the buffer, before and while they are magnitudes. -/
abbrev Bytes :=
  Nat → UInt8

/-- The `uint16_t` at a cell; the first of its bytes is the low one. -/
def cellsOf (bytes : Bytes) : Buffer :=
  fun cell => (bytes (2 * cell)).toNat + 256 * (bytes (2 * cell + 1)).toNat

/-- The loop of `magnitute`, in place; `left` bounds its rounds. -/
def magnituteChecked (len : Nat) : (left i : Nat) → Bytes → Option Bytes
  | 0, i, buf =>
      if i < len then none else some buf
  | left + 1, i, buf =>
      if i < len then do
        let first ← get? len buf i
        let second ← get? len buf (i + 1)
        let m := squares first + squares second
        let buf ← put? len i (UInt8.ofNat m) buf
        let buf ← put? len (i + 1) (UInt8.ofNat (m / 256)) buf
        magnituteChecked len left (i + 2) buf
      else
        some buf

/-- The loop of `preamble`. -/
def preambleLoopChecked
    (len : Nat)
    (buf : Buffer)
    (i : Nat) :
    (left i2 low high : Nat) →
    Option Bool
  | 0, _, _, _ =>
      some true
  | left + 1, i2, low, high => do
      let sample ← get? len buf (i + i2)
      let high' := if i2 ∈ highSamples then sample else high
      let low' := if i2 ∈ highSamples then low else sample
      if high' ≤ low' then
        some false
      else
        preambleLoopChecked len buf i left (i2 + 1) low' high'

/-- The loop that writes `MESSAGEGO` over a preamble. -/
def fillChecked (len value : Nat) : (left i : Nat) → Buffer → Option Buffer
  | 0, _, buf =>
      some buf
  | left + 1, i, buf => do
      let buf ← put? len i value buf
      fillChecked len value left (i + 1) buf

/-- The loop that finds a preamble. -/
def searchChecked (len : Nat) : (left : Nat) → Scan → Option (Scan × Bool)
  | 0, scan =>
      some (scan, false)
  | left + 1, scan => do
      let found ← preambleLoopChecked len scan.buf scan.i preambleLen 0 0 65535
      if found then
        let a ← get? len scan.buf scan.i
        let b ← get? len scan.buf (scan.i + 1)
        let buf ← fillChecked len messagego preambleLen scan.i scan.buf
        some
          ({ scan with
            a := a
            b := b
            buf := buf
            i := scan.i + preambleLen }, true)
      else
        searchChecked len left { scan with i := scan.i + 1 }

/-- A bit is marked. -/
def Marking.storeChecked
    (len : Nat)
    (marking : Marking)
    (bit a b : Nat)
    (errors : Int) :
    Option Marking := do
  let buf ← put? len (marking.i + 1) overwrite marking.buf
  let buf ← put? len marking.i overwrite buf
  let buf ← put? len marking.i2 bit buf
  some ⟨buf, marking.i + 2, a, b, marking.i2 + 1, errors⟩

/-- The loop that marks bits until the encoding breaks. -/
def markChecked
    (options : Options)
    (len : Nat) :
    (left : Nat) →
    Marking →
    Option Marking
  | 0, marking =>
      if marking.i < len - 1 then none else some marking
  | left + 1, marking =>
      if marking.i < len - 1 then do
        let c ← get? len marking.buf marking.i
        let d ← get? len marking.buf (marking.i + 1)
        let bit := singleManchester options.quality marking.a marking.b c d
        if bit = badsample then
          if marking.errors + 1 > options.allowedErrors then
            let buf ← put? len marking.i2 badsample marking.buf
            some ⟨buf, marking.i, c, d, marking.i2, marking.errors + 1⟩
          else
            let next ←
              marking.storeChecked len (decide (c > d)).toNat 0 65535
                (marking.errors + 1)
            markChecked options len left next
        else
          let next ← marking.storeChecked len bit c d marking.errors
          markChecked options len left next
      else
        some marking

/-- One round of the loop of `manchester`. -/
def passChecked
    (options : Options)
    (len : Nat)
    (scan : Scan) :
    Option Scan := do
  let found ← searchChecked len (len - preambleLen - scan.i) scan
  let marked ← markChecked options len len found.1.marking
  some
    (marked.scan
      (found.1.runs ++ [⟨found.1.i, marked.i2 - found.1.i, found.2⟩]))

/-- `manchester`. -/
def manchesterChecked
    (options : Options)
    (len : Nat) :
    (rounds : Nat) →
    Scan →
    Option Scan
  | 0, scan =>
      if scan.i < len - 1 then none else some scan
  | rounds + 1, scan =>
      if scan.i < len - 1 then do
        let next ← passChecked options len scan
        manchesterChecked options len rounds next
      else
        some scan

/-- `adsb_frame[index] |= ..` for a bit that is set; `adsb_frame` has 14 entries. -/
def Collecting.addBit?
    (collecting : Collecting)
    (cell : Nat) :
    Option (List Byte) :=
  let index := collecting.dataI / 8
  let shift := 7 - collecting.dataI % 8
  if cell ≠ 0 then
    if index ≤ 13 then
      some
        (collecting.frame.set index
          (collecting.frame.getD index 0 ||| 1 <<< shift))
    else
      none
  else
    some collecting.frame

/-- Does the loop that collects a frame go on? -/
def Collecting.goesOn?
    (len : Nat)
    (buf : Buffer)
    (collecting : Collecting) :
    Option Bool :=
  if collecting.i < len then do
    let cell ← get? len buf collecting.i
    some (decide (cell ≤ 1 ∧ collecting.dataI < collecting.frameLen))
  else
    some false

/-- The loop that collects a frame. -/
def collectChecked
    (buf : Buffer)
    (len : Nat) :
    (left : Nat) →
    Collecting →
    Option Collecting
  | 0, collecting => do
      let goesOn ← collecting.goesOn? len buf
      if goesOn then none else some collecting
  | left + 1, collecting => do
      let goesOn ← collecting.goesOn? len buf
      if goesOn then
        let cell ← get? len buf collecting.i
        let frame ← collecting.addBit? cell
        if collecting.dataI = 7 ∧ frame.getD 0 0 = 0 then
          some { collecting with frame := frame }
        else
          collectChecked buf len left
            { i := collecting.i + 1
              dataI := collecting.dataI + 1
              frameLen :=
                if collecting.dataI = 7 then
                  if frame.getD 0 0 &&& 0x80 ≠ 0 then longFrame else shortFrame
                else
                  collecting.frameLen
              frame := frame }
      else
        some collecting

/-- The loop of `messages`. -/
def messagesChecked
    (buf : Buffer)
    (len : Nat) :
    (left i : Nat) →
    Option (List Shown)
  | 0, i =>
      if i < len then none else some []
  | left + 1, i =>
      if i < len then do
        let cell ← get? len buf i
        if cell > 1 then
          messagesChecked buf len left (i + 1)
        else
          let collected ← collectChecked buf len longFrame (.begin i)
          if collected.dataI < collected.frameLen - 1 then
            messagesChecked buf len left (collected.i + 1)
          else
            let later ← messagesChecked buf len left (collected.i + 1)
            some
              (⟨collected.frame, collected.frameLen, i, collected.dataI⟩ ::
                later)
      else
        some []

/-- `magnitute`, `manchester` and `messages` on a buffer of bytes. -/
def decodeChecked
    (options : Options)
    (buf : Bytes)
    (len rounds : Nat) :
    Option (List Shown) := do
  let magnitudes ← magnituteChecked len len 0 buf
  let cells := cellsOf magnitudes
  let scan ← manchesterChecked options (len / 2) rounds (.start cells)
  messagesChecked scan.buf (len / 2) (len / 2) 0

/-! ## Magnitudes -/

/-- The bytes up to an index hold magnitudes, and the others are as they were. -/
structure MagnitudesUpTo
    (orig : Bytes)
    (i : Nat)
    (buf : Bytes) : Prop where
  behind :
    ∀ cell, 2 * cell < i → cellsOf buf cell = magnitute orig cell
  ahead :
    ∀ index, i ≤ index → buf index = orig index

theorem squares_le
    (i : UInt8) :
    squares i ≤ 16384 := by
  have bound := i.toNat_lt
  have side : abs8 i.toNat ≤ 128 := by
    unfold abs8
    split <;> omega
  exact Nat.mul_le_mul side side

/-- The two bytes of a magnitude, and what they are read back as. -/
theorem cell_of_bytes
    {m : Nat}
    (small : m ≤ 32768) :
    (UInt8.ofNat m).toNat + 256 * (UInt8.ofNat (m / 256)).toNat = m := by
  rw [UInt8.toNat_ofNat', UInt8.toNat_ofNat']
  omega

/-- One round writes the next magnitude over its two bytes. -/
theorem MagnitudesUpTo.next
    {orig buf : Bytes}
    {i : Nat}
    (even : i % 2 = 0)
    (written : MagnitudesUpTo orig i buf) :
    let m := squares (buf i) + squares (buf (i + 1))
    MagnitudesUpTo orig (i + 2)
      (Function.update
        (Function.update buf i (UInt8.ofNat m))
        (i + 1) (UInt8.ofNat (m / 256))) := by
  intro m
  have first := squares_le (buf i)
  have second := squares_le (buf (i + 1))
  constructor
  · intro cell behind
    unfold cellsOf
    by_cases here : 2 * cell = i
    · rw [here, Function.update_of_ne (by omega), Function.update_self,
        Function.update_self, cell_of_bytes (by omega)]
      unfold magnitute
      rw [here, ← written.ahead i (Nat.le_refl _),
        ← written.ahead (i + 1) (Nat.le_succ _)]
    · rw [Function.update_of_ne (by omega), Function.update_of_ne (by omega),
        Function.update_of_ne (by omega), Function.update_of_ne (by omega)]
      exact written.behind cell (by omega)
  · intro index ahead
    rw [Function.update_of_ne (by omega), Function.update_of_ne (by omega)]
    exact written.ahead index (by omega)

/-- `magnitute` stays inside a buffer of even length, and leaves its magnitudes. -/
theorem magnituteChecked_written
    {len left i : Nat}
    (even : len % 2 = 0)
    (evenIndex : i % 2 = 0)
    (enough : len ≤ i + 2 * left)
    {orig buf : Bytes}
    (written : MagnitudesUpTo orig i buf) :
    ∃ magnitudes,
      magnituteChecked len left i buf = some magnitudes ∧
        ∀ cell < len / 2, cellsOf magnitudes cell = magnitute orig cell := by
  induction left generalizing i buf with
  | zero =>
      have ended : ¬ i < len := by omega
      exact ⟨buf, if_neg ended, fun cell inside =>
        written.behind cell (by omega)⟩
  | succ left inductionHypothesis =>
      by_cases inside : i < len
      · have insideToo : i + 1 < len := by omega
        rw [magnituteChecked, if_pos inside, BoundedBuffer.get?_of_lt inside,
          BoundedBuffer.get?_of_lt insideToo]
        simp only [bind, Option.bind, BoundedBuffer.put?_of_lt inside,
          BoundedBuffer.put?_of_lt insideToo]
        exact
          inductionHypothesis (by omega) (by omega) (written.next evenIndex)
      · refine ⟨buf, ?_, fun cell before => written.behind cell (by omega)⟩
        rw [magnituteChecked, if_neg inside]

/-! ## `manchester` -/

theorem preambleLoopChecked_eq
    {len i left i2 : Nat}
    (inside : i + i2 + left ≤ len)
    (buf : Buffer)
    (low high : Nat) :
    preambleLoopChecked len buf i left i2 low high =
      some (preambleLoop buf i left i2 low high) := by
  induction left generalizing i2 low high with
  | zero =>
      rfl
  | succ left inductionHypothesis =>
      have goesOn :=
        inductionHypothesis (show i + (i2 + 1) + left ≤ len by omega)
      rw [preambleLoopChecked, preambleLoop,
        BoundedBuffer.get?_of_lt (by omega)]
      simp only [bind, Option.bind, goesOn]
      exact (apply_ite some _ _ _).symm

theorem fillChecked_eq
    {len left i : Nat}
    (inside : i + left ≤ len)
    (value : Nat)
    (buf : Buffer) :
    fillChecked len value left i buf = some (fill buf i left value) := by
  induction left generalizing i buf with
  | zero =>
      have none : fill buf i 0 value = buf := by
        funext cell
        exact if_neg (by omega)
      rw [none]
      rfl
  | succ left inductionHypothesis =>
      have split :
          fill (Function.update buf i value) (i + 1) left value =
            fill buf i (left + 1) value := by
        funext cell
        unfold fill
        by_cases here : cell = i
        · rw [if_neg (by omega), if_pos (by omega), here,
            Function.update_self]
        · rw [Function.update_of_ne here]
          exact if_congr (by omega) rfl rfl
      rw [fillChecked, BoundedBuffer.put?_of_lt (by omega)]
      simp only [bind, Option.bind]
      rw [inductionHypothesis (by omega), split]

/-- The search stays inside the buffer. -/
theorem searchChecked_eq
    {len left : Nat}
    {scan : Scan}
    (inside : left ≤ len - preambleLen - scan.i) :
    searchChecked len left scan = some (search left scan) := by
  induction left generalizing scan with
  | zero =>
      rfl
  | succ left inductionHypothesis =>
      have room : scan.i + preambleLen ≤ len := by omega
      have long : preambleLen = 16 := rfl
      have isPreamble :
          preambleLoopChecked len scan.buf scan.i preambleLen 0 0 65535 =
            some (preamble scan.buf scan.i) :=
        preambleLoopChecked_eq (by omega) _ _ _
      have goesOn :=
        @inductionHypothesis { scan with i := scan.i + 1 }
          (by simp only; omega)
      rw [searchChecked, search, isPreamble,
        BoundedBuffer.get?_of_lt (by omega),
        BoundedBuffer.get?_of_lt (by omega), fillChecked_eq room]
      simp only [bind, Option.bind, goesOn]
      exact (apply_ite some _ _ _).symm

theorem Marking.storeChecked_eq
    {len : Nat}
    {marking : Marking}
    (ordered : marking.i2 ≤ marking.i)
    (inside : marking.i < len - 1)
    (bit a b : Nat)
    (errors : Int) :
    marking.storeChecked len bit a b errors =
      some (marking.store bit a b errors) := by
  unfold Marking.storeChecked
  rw [BoundedBuffer.put?_of_lt (by omega)]
  simp only [bind, Option.bind]
  rw [BoundedBuffer.put?_of_lt (by omega)]
  simp only
  rw [BoundedBuffer.put?_of_lt (by omega)]
  rfl

/-- The marking writes at places that it has passed, and ends before its rounds do. -/
theorem markChecked_eq
    (options : Options)
    {len left : Nat}
    {marking : Marking}
    (enough : len ≤ marking.i + 2 * left + 1)
    (ordered : marking.i2 ≤ marking.i) :
    markChecked options len left marking =
      some (mark options len left marking) := by
  induction left generalizing marking with
  | zero =>
      rw [markChecked, mark, if_neg (by omega)]
  | succ left inductionHypothesis =>
      by_cases inside : marking.i < len - 1
      · have goesOn :
            ∀ (bit a b : Nat) (errors : Int),
              markChecked options len left (marking.store bit a b errors) =
                some (mark options len left (marking.store bit a b errors)) := by
          intro bit a b errors
          apply inductionHypothesis
          · simp only [Marking.store]
            omega
          · simp only [Marking.store]
            omega
        rw [markChecked, mark, if_pos inside, if_pos inside,
          BoundedBuffer.get?_of_lt (by omega),
          BoundedBuffer.get?_of_lt (by omega)]
        simp only [bind, Option.bind,
          marking.storeChecked_eq ordered inside, goesOn,
          BoundedBuffer.put?_of_lt
            (show marking.i2 < len from by omega)]
        split
        · split
          · rfl
          · rfl
        · rfl
      · rw [markChecked, mark, if_neg inside, if_neg inside]

/-- A round stays inside the buffer. -/
theorem passChecked_eq
    (options : Options)
    (len : Nat)
    (scan : Scan) :
    passChecked options len scan = some (pass options len scan) := by
  unfold passChecked pass
  rw [searchChecked_eq (Nat.le_refl _)]
  simp only [bind, Option.bind]
  rw [markChecked_eq options (by omega) (Nat.le_refl _)]

theorem manchesterChecked_eq
    (options : Options)
    (len rounds : Nat)
    (scan : Scan) :
    manchesterChecked options len rounds scan =
      manchesterLoop options len rounds scan := by
  induction rounds generalizing scan with
  | zero =>
      rfl
  | succ rounds inductionHypothesis =>
      rw [manchesterChecked, manchesterLoop, passChecked_eq]
      simp only [bind, Option.bind, inductionHypothesis]

/-! ## `messages` -/

theorem Collecting.goesOn?_eq
    (len : Nat)
    (buf : Buffer)
    (collecting : Collecting) :
    collecting.goesOn? len buf =
      some
        (decide
          (collecting.i < len ∧ buf collecting.i ≤ 1 ∧
            collecting.dataI < collecting.frameLen)) := by
  unfold Collecting.goesOn?
  by_cases inside : collecting.i < len
  · rw [if_pos inside, BoundedBuffer.get?_of_lt inside]
    simp [inside]
  · rw [if_neg inside]
    simp [inside]

theorem Collecting.addBit?_eq
    {collecting : Collecting}
    (inFrame : collecting.dataI / 8 ≤ 13)
    (cell : Nat) :
    collecting.addBit? cell =
      some
        (if cell ≠ 0 then
          collecting.frame.set (collecting.dataI / 8)
            (collecting.frame.getD (collecting.dataI / 8) 0 |||
              1 <<< (7 - collecting.dataI % 8))
        else
          collecting.frame) := by
  unfold Collecting.addBit?
  simp only [if_pos inFrame]
  exact (apply_ite some _ _ _).symm

/-- A frame has 112 bits at most, which are in the 14 entries of `adsb_frame`. -/
theorem collectChecked_eq
    (buf : Buffer)
    (len : Nat)
    {left : Nat}
    {collecting : Collecting}
    (enough : longFrame ≤ collecting.dataI + left)
    (frameLen : collecting.frameLen ≤ longFrame) :
    collectChecked buf len left collecting =
      some (collect buf len left collecting) := by
  have long : longFrame = 112 := rfl
  have short : shortFrame = 56 := rfl
  induction left generalizing collecting with
  | zero =>
      have ended :
          ¬ (collecting.i < len ∧ buf collecting.i ≤ 1 ∧
            collecting.dataI < collecting.frameLen) := by
        omega
      rw [collectChecked, collecting.goesOn?_eq, collect]
      simp only [bind, Option.bind, ended, decide_false]
      rfl
  | succ left inductionHypothesis =>
      rw [collectChecked, collecting.goesOn?_eq, collect]
      by_cases goesOn :
        collecting.i < len ∧ buf collecting.i ≤ 1 ∧
          collecting.dataI < collecting.frameLen
      · have inFrame : collecting.dataI / 8 ≤ 13 := by omega
        simp only [bind, Option.bind, goesOn, and_self, decide_true, if_true,
          BoundedBuffer.get?_of_lt goesOn.1, Collecting.addBit?_eq inFrame]
        rw [inductionHypothesis (by simp only; omega)
          (by simp only; split_ifs <;> omega)]
        exact (apply_ite some _ _ _).symm
      · simp only [bind, Option.bind, goesOn, decide_false]
        rfl

theorem messagesChecked_eq
    (buf : Buffer)
    {len left i : Nat}
    (enough : len ≤ i + left) :
    messagesChecked buf len left i = some (messagesLoop buf len left i) := by
  induction left generalizing i with
  | zero =>
      rw [messagesChecked, messagesLoop, if_neg (by omega)]
  | succ left inductionHypothesis =>
      by_cases inside : i < len
      · have later := le_collect buf len longFrame (.begin i)
        dsimp only [Collecting.begin] at later
        have collected :
            collectChecked buf len longFrame (.begin i) =
              some (collect buf len longFrame (.begin i)) :=
          collectChecked_eq buf len (Nat.le_add_left _ _) (Nat.le_refl _)
        rw [messagesChecked, messagesLoop, if_pos inside, if_pos inside,
          BoundedBuffer.get?_of_lt inside, collected]
        have skips := inductionHypothesis (show len ≤ i + 1 + left by omega)
        have goesOn :=
          inductionHypothesis
            (show len ≤
                (collect buf len longFrame (.begin i)).i + 1 + left by
              dsimp only [Collecting.begin]
              omega)
        simp only [bind, Option.bind, skips, goesOn]
        split
        · rfl
        · split
          · rfl
          · rfl
      · rw [messagesChecked, messagesLoop, if_neg inside, if_neg inside]

/-! ## The decoder -/

/-- The cells that `manchester` begins with are never marks. -/
theorem magnitute_ne_badsample
    (buf : Bytes)
    (cell : Nat) :
    magnitute buf cell ≠ badsample :=
  Magnitude.ne_badsample
    ⟨magnitute buf cell, buf (2 * cell), buf (2 * cell + 1), rfl⟩

/-- Every state of the scan keeps track of the cells that it began with. -/
theorem tracks_iterate
    (options : Options)
    (len : Nat)
    (orig : Buffer)
    (rounds : Nat) :
    ((pass options len)^[rounds] (.start orig)).Tracks orig len := by
  induction rounds with
  | zero =>
      exact Scan.start_tracks orig len
  | succ rounds inductionHypothesis =>
      rw [Function.iterate_succ_apply']
      exact inductionHypothesis.pass options

/--
On every buffer of even length the decoder ends, within three rounds of
`manchester` a cell, and no access is outside the buffer or `adsb_frame`.  From
any state of the scan three rounds get on, also when the bits of a round break off
at once.
-/
theorem decodeChecked_ends
    (options : Options)
    (buf : Bytes)
    {len : Nat}
    (even : len % 2 = 0) :
    ∃ magnitudes scan,
      magnituteChecked len len 0 buf = some magnitudes ∧
        (∀ cell < len / 2, cellsOf magnitudes cell = magnitute buf cell) ∧
        Manchester options (len / 2) (cellsOf magnitudes) scan ∧
        decodeChecked options buf len (3 * (len / 2)) =
          some (messages scan.buf (len / 2)) ∧
        ∀ rounds,
          let reached :=
            (pass options (len / 2))^[rounds] (.start (cellsOf magnitudes))
          reached.i < len / 2 - 1 →
            reached.i < ((pass options (len / 2))^[3] reached).i := by
  obtain ⟨magnitudes, isMagnitudes, cells⟩ :=
    @magnituteChecked_written len len 0 even rfl (by omega) buf buf
      ⟨fun _ none => absurd none (Nat.not_lt_zero _), fun _ _ => rfl⟩
  have notMarks :
      ∀ cell < len / 2, cellsOf magnitudes cell ≠ badsample := by
    intro cell inside
    rw [cells cell inside]
    exact magnitute_ne_badsample buf cell
  obtain ⟨scan, ends⟩ :
      ∃ scan,
        manchesterLoop options (len / 2) (3 * (len / 2))
          (.start (cellsOf magnitudes)) = some scan :=
    manchesterLoop_ends notMarks options
      (Scan.start_tracks (cellsOf magnitudes) (len / 2)) (Nat.le_refl _)
  refine ⟨magnitudes, scan, isMagnitudes, cells, ⟨_, ends⟩, ?_, ?_⟩
  · have shown :
        messagesChecked scan.buf (len / 2) (len / 2) 0 =
          some (messages scan.buf (len / 2)) :=
      messagesChecked_eq scan.buf (by omega)
    unfold decodeChecked
    rw [isMagnitudes]
    simp only [bind, Option.bind, manchesterChecked_eq, ends, shown]
  · intro rounds reached inside
    exact
      three_passes_progress notMarks options
        (tracks_iterate options (len / 2) (cellsOf magnitudes) rounds) inside

/-- A buffer of 100 rising bytes, at quality 10. -/
theorem decodeChecked_ends_rising :
    ∃ magnitudes scan,
      magnituteChecked 100 100 0 (fun index => UInt8.ofNat (100 + index)) =
          some magnitudes ∧
        (∀ cell < 50,
          cellsOf magnitudes cell =
            magnitute (fun index => UInt8.ofNat (100 + index)) cell) ∧
        Manchester ⟨10, 5⟩ 50 (cellsOf magnitudes) scan ∧
        decodeChecked ⟨10, 5⟩ (fun index => UInt8.ofNat (100 + index)) 100 150 =
          some (messages scan.buf 50) ∧
        ∀ rounds,
          let reached :=
            (pass ⟨10, 5⟩ 50)^[rounds] (.start (cellsOf magnitudes))
          reached.i < 49 → reached.i < ((pass ⟨10, 5⟩ 50)^[3] reached).i :=
  @decodeChecked_ends ⟨10, 5⟩ (fun index => UInt8.ofNat (100 + index)) 100 rfl

end LibRtlSdr.RtlAdsb
