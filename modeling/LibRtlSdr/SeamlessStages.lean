import Mathlib.Data.List.Basic

namespace LibRtlSdr.SeamlessStages

/-!
# Stages of a stream that arrives in pieces

A stage has a state and makes something of a piece of the stream, or has no result.  It
is seamless when two pieces, one after the other, give what they give as one piece.
Seamless stages behind each other are seamless, and what a seamless stage makes of a
stream does not depend on where the stream was cut.
-/

/-- What a stage in some state makes of a piece, and its state behind the piece. -/
abbrev Stage (S A B : Type) := S → List A → Option (List B × S)

variable {S T A B C : Type}

/-- A second result behind a first one. -/
def behind (first : List B × S) (later : List B × S) : List B × S :=
  (first.1 ++ later.1, later.2)

/-- Piece after piece. -/
def feedPieces (stage : Stage S A B) : Stage S (List A) B
  | s, [] =>
      some ([], s)
  | s, piece :: rest =>
      (stage s piece).bind (fun first =>
        (feedPieces stage first.2 rest).map (behind first))

/-- A second stage takes what the first one makes. -/
def andThen (first : Stage S A B) (second : Stage T B C) : Stage (S × T) A C :=
  fun s piece =>
    (first s.1 piece).bind (fun made =>
      (second s.2 made.1).map (fun last => (last.1, (made.2, last.2))))

/-- Two pieces give what they give as one, and an empty piece changes nothing. -/
structure Seamless (stage : Stage S A B) : Prop where
  empty : ∀ s, stage s [] = some ([], s)
  append :
    ∀ s first second,
      stage s (first ++ second) =
        (stage s first).bind (fun made => (stage made.2 second).map (behind made))

/-- A stage that hands on what it is given. -/
def passing : Stage S A A :=
  fun s piece => some (piece, s)

/-- A stage that translates each value, as long as it can. -/
def translating (translate : A → Option B) : Stage S A B :=
  fun s piece => (piece.mapM translate).map (fun made => (made, s))

/-- What a memory of the values makes of each of them. -/
def scan (next : S → A → B × S) : S → List A → List B × S
  | s, [] =>
      ([], s)
  | s, value :: rest =>
      let later := scan next (next s value).2 rest
      ((next s value).1 :: later.1, later.2)

/-- A stage that makes something of each value and remembers. -/
def scanning (next : S → A → B × S) : Stage S A B :=
  fun s piece => some (scan next s piece)

theorem passing_seamless :
    Seamless (passing : Stage S A A) where
  empty := fun _ => rfl
  append := fun _ _ _ => rfl

theorem translating_seamless
    (translate : A → Option B) :
    Seamless (translating translate : Stage S A B) where
  empty := fun _ => rfl
  append := by
    intro s first second
    unfold translating
    rw [List.mapM_append]
    cases first.mapM translate with
    | none => rfl
    | some made => cases second.mapM translate <;> rfl

theorem scan_append
    (next : S → A → B × S)
    (s : S)
    (first second : List A) :
    scan next s (first ++ second) =
      behind (scan next s first) (scan next (scan next s first).2 second) := by
  induction first generalizing s with
  | nil =>
      rfl
  | cons value rest inductionHypothesis =>
      rw [List.cons_append, scan, inductionHypothesis, scan]
      rfl

theorem scanning_seamless
    (next : S → A → B × S) :
    Seamless (scanning next) where
  empty := fun _ => rfl
  append := fun s first second => congrArg some (scan_append next s first second)

/-- The cuts do not matter. -/
theorem Seamless.feedPieces_eq
    {stage : Stage S A B}
    (seamless : Seamless stage)
    (s : S)
    (pieces : List (List A)) :
    feedPieces stage s pieces = stage s pieces.flatten := by
  induction pieces generalizing s with
  | nil =>
      exact (seamless.empty s).symm
  | cons piece rest inductionHypothesis =>
      rw [feedPieces, List.flatten_cons, seamless.append]
      congr 1
      funext first
      rw [inductionHypothesis]

/-- Seamless stages behind each other are seamless. -/
theorem Seamless.andThen
    {first : Stage S A B}
    {second : Stage T B C}
    (seamlessFirst : Seamless first)
    (seamlessSecond : Seamless second) :
    Seamless (andThen first second) where
  empty := by
    intro s
    simp [SeamlessStages.andThen, seamlessFirst.empty, seamlessSecond.empty]
  append := by
    intro s earlier later
    unfold SeamlessStages.andThen
    rw [seamlessFirst.append, Option.bind_assoc, Option.bind_assoc]
    congr 1
    funext made
    cases makingLater : first made.2 later with
    | none =>
        cases second s.2 made.1 with
        | none => rfl
        | some last => simp [makingLater]
    | some madeLater =>
        simp only [Option.map_some, Option.bind_some, behind, seamlessSecond.append]
        cases second s.2 made.1 with
        | none => rfl
        | some last =>
            simp only [Option.map_some, Option.bind_some, makingLater]
            cases second last.2 madeLater.1 <;> rfl

/-! ## Machines that work on blocks -/

variable {Machine Block : Type}

/-- Block after block. -/
def feedBlocks (work : Machine → Block → Option (List B × Machine)) :
    Machine → List Block → Option (List B × Machine)
  | machine, [] =>
      some ([], machine)
  | machine, block :: rest =>
      (work machine block).bind (fun first =>
        (feedBlocks work first.2 rest).map (behind first))

/-- What is related before a step of both is related behind it. -/
theorem rel_bind
    {First Second First' Second' : Type}
    {Before : First → Second → Prop}
    {After : First' → Second' → Prop}
    {first : Option First}
    {second : Option Second}
    (related : Option.Rel Before first second)
    {step : First → Option First'}
    {step' : Second → Option Second'}
    (steps : ∀ done made, Before done made → Option.Rel After (step done) (step' made)) :
    Option.Rel After (first.bind step) (second.bind step') := by
  cases related with
  | none =>
      exact .none
  | some before =>
      exact steps _ _ before

theorem rel_map
    {First Second First' Second' : Type}
    {Before : First → Second → Prop}
    {After : First' → Second' → Prop}
    {first : Option First}
    {second : Option Second}
    (related : Option.Rel Before first second)
    {f : First → First'}
    {g : Second → Second'}
    (maps : ∀ done made, Before done made → After (f done) (g made)) :
    Option.Rel After (first.map f) (second.map g) := by
  cases related with
  | none =>
      exact .none
  | some before =>
      exact .some (maps _ _ before)

/-- Both have no result, or the same outputs and states that are related. -/
def Agree
    (Related : Machine → S → Prop) :
    Option (List B × Machine) → Option (List B × S) → Prop :=
  Option.Rel (fun done made => done.1 = made.1 ∧ Related done.2 made.2)

/-- A block does to a machine what its contents do to the stage. -/
def Carries
    (Related : Machine → S → Prop)
    (Admits : Block → Prop)
    (contents : Block → List A)
    (work : Machine → Block → Option (List B × Machine))
    (stage : Stage S A B) : Prop :=
  ∀ machine s block,
    Related machine s →
    Admits block →
    Agree Related (work machine block) (stage s (contents block))

/-- The blocks do to the machine what the whole stream does to the stage. -/
theorem Carries.feedBlocks
    {Related : Machine → S → Prop}
    {Admits : Block → Prop}
    {contents : Block → List A}
    {work : Machine → Block → Option (List B × Machine)}
    {stage : Stage S A B}
    (carries : Carries Related Admits contents work stage)
    (seamless : Seamless stage)
    {machine : Machine}
    {s : S}
    (related : Related machine s)
    {blocks : List Block}
    (admitted : ∀ block ∈ blocks, Admits block) :
    Agree Related (feedBlocks work machine blocks)
      (stage s (blocks.flatMap contents)) := by
  rw [List.flatMap_def, ← seamless.feedPieces_eq]
  induction blocks generalizing machine s with
  | nil =>
      exact .some ⟨rfl, related⟩
  | cons block rest inductionHypothesis =>
      rw [List.forall_mem_cons] at admitted
      rw [List.map_cons, SeamlessStages.feedBlocks, feedPieces]
      apply rel_bind (carries machine s block related admitted.1)
      intro done made agree
      apply rel_map (inductionHypothesis agree.2 admitted.2)
      intro doneLater madeLater agreeLater
      refine ⟨?_, agreeLater.2⟩
      simp only [behind]
      rw [agree.1, agreeLater.1]

end LibRtlSdr.SeamlessStages
