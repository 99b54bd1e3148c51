import ScriptBackend.Proofs.Machine.Values

/-!
# What assignments do

An assignment first finds the places of its targets, then evaluates all its values, and only then
stores, from the last target to the first. Finding the place of an element evaluates its index;
every other target has its place in its symbol.

The code of an assignment does exactly this and leaves the stacks as they were. The index of an
element lies beneath all values while the other targets are stored, and is on top again with the
element's own value when its turn comes. Only the first target has this beneath it, so an element is
refused in every later place.
-/

namespace ScriptBackend

variable {World : Type} {engine : Engine World}

/-- The stack that an expression takes a value from as the target of an assignment. The elements of
arrays are integers, and so are their indices. -/
def Expr.takes? : Expr → Option StackType
  | .localVar _ _ symbol _ =>
    (symbol.bind Symbol.local?).bind fun symbol => symbol.ty.stackType?
  | .element _ index _ symbol _ =>
    (symbol.bind Symbol.local?).bind fun symbol =>
      if symbol.ty.elementType.stackType? = some .integer ∧ index.leaves? = some [.integer] then
        some .integer
      else none
  | .gameVar _ _ _ symbol _ =>
    (symbol.bind Symbol.game?).bind fun symbol => symbol.ty.stackType?
  | _ => none

/-- A well-typed target takes a value from the stack of its typing. -/
theorem Expr.Takes.takes?_eq {target : Expr} {stack : StackType} (h : target.Takes stack) :
    target.takes? = some stack := by
  cases h with
  | localVar hsymbol => simp [Expr.takes?, Symbol.local?, hsymbol]
  | element hsymbol hindex => simp [Expr.takes?, Symbol.local?, hsymbol, hindex.leaves?_eq]
  | gameVar hsymbol => simp [Expr.takes?, Symbol.game?, hsymbol]

/-- Where a value is stored. -/
inductive Destination where
  | localVar (symbol : LocalSymbol)
  /-- The element of a local array at an index. -/
  | element (symbol : LocalSymbol) (index : Int32)
  /-- A game variable, of the secondary owner if so told. -/
  | gameVar (secondary : Bool) (symbol : GameSymbol)

namespace Destination

/-- Store a value; only integers are stored in arrays. -/
def store? (engine : Engine World) : Destination → Value → Option (StateM World Unit)
  | .localVar symbol, value => some (engine.writeLocal symbol value)
  | .element symbol index, .integer value => some (engine.writeElement symbol index value)
  | .element _ _, _ => none
  | .gameVar secondary symbol, value => some (engine.writeGame secondary symbol value)

/-- Store values, the last first; there must be as many as destinations. -/
def storeAll? (engine : Engine World) : List Destination → List Value → World → Option World
  | [], [], world => some world
  | first :: rest, value :: others, world => do
    let world ← storeAll? engine rest others world
    let act ← first.store? engine value
    return (act world).2
  | _, _, _ => none

/-- What lies on the stacks beneath the value of a destination: the index of an element. -/
def held : Destination → List Value
  | .element _ index => [.integer index]
  | .localVar _ | .gameVar _ _ => []

end Destination

/-- Find the place of a target. -/
def Expr.locate? (engine : Engine World) : Expr → World → Option (Destination × World)
  | .localVar _ _ (some (.localVar symbol)) _, world => some (.localVar symbol, world)
  | .element _ index _ (some (.localVar symbol)) _, world => do
    let (indices, world) ← index.eval engine world
    match indices with
    | [.integer index] => return (.element symbol index, world)
    | _ => none
  | .gameVar _ secondary _ (some (.gameVar symbol)) _, world =>
    some (.gameVar secondary symbol, world)
  | _, _ => none

/-- Find the places of targets from left to right. -/
def Expr.locateAll? (engine : Engine World) :
    List Expr → World → Option (List Destination × World)
  | [], world => some ([], world)
  | first :: rest, world => do
    let (destination, world) ← first.locate? engine world
    let (destinations, world) ← Expr.locateAll? engine rest world
    return (destination :: destinations, world)

/-- The world after an assignment: places are found first, then all values are evaluated, and then
they are stored, the last first. -/
def evalAssignment (engine : Engine World) (targets values : List Expr) (world : World) :
    Option World := do
  let (destinations, world) ← Expr.locateAll? engine targets world
  let (values, world) ← Expr.evalAll engine values world
  Destination.storeAll? engine destinations values world

/-- The code of the index of a target, if it has one. -/
def Expr.indexCode : Expr → StraightCode
  | .element _ index _ _ _ => index.code [] .value
  | _ => .ok []

/-- Whether an instruction stores values of a stack at a destination, once what lies beneath the
value is on the stacks. -/
def Destination.Receives (engine : Engine World) (destination : Destination)
    (instruction : Instruction) (kind : StackType) : Prop :=
  ∀ value : Value, value.stack = kind → ∃ act, destination.store? engine value = some act ∧
    ∀ base world,
      instruction.perform engine ⟨base.pushAll (destination.held ++ [value]), world⟩ =
        some ⟨base, (act world).2⟩

/-- A store takes its operands off and pushes nothing. -/
theorem Instruction.perform_store {instruction : Instruction} {args : List Value}
    {pops : List StackType} {store : StateM World Unit}
    (hdoes : instruction.Does (fun _ => none) pops []) (hargs : args.map Value.stack = pops)
    (hact : instruction.act? engine args = some do store; return []) (base : Stacks)
    (world : World) :
    instruction.perform engine ⟨base.pushAll args, world⟩ = some ⟨base, (store world).2⟩ :=
  perform_pushAll hdoes.2 hargs hact base world

/-- The code of its index leaves what lies beneath the value of a target, and its store takes
both. -/
theorem Expr.exists_locate? (engine : Engine World) {target : Expr} {kind : StackType}
    {instruction : Instruction} {code : List Instruction} (htakes : target.takes? = some kind)
    (hstore : target.store = .ok instruction) (hcode : target.indexCode = .ok code)
    (world : World) : ∃ destination final, target.locate? engine world = some (destination, final) ∧
      (∀ base, performAll engine code ⟨base, world⟩ =
        some ⟨base.pushAll destination.held, final⟩) ∧
      destination.Receives engine instruction kind := by
  cases target with
  | localVar name ty symbol span =>
    obtain ⟨symbol, rfl, hkind⟩ := exists_of_bound Symbol.eq_of_local? htakes
    cases hcode
    cases hstore
    refine ⟨.localVar symbol, world, rfl, fun _ => rfl, fun value hvalue => ⟨_, rfl, ?_⟩⟩
    have hargs : [value].map Value.stack = [kind] := by simp [hvalue]
    exact Instruction.perform_store (does_popLocal span hkind) hargs rfl
  | element name index ty symbol span =>
    obtain ⟨symbol, rfl, hasked⟩ := exists_of_bound Symbol.eq_of_local? htakes
    simp only [Option.ite_none_right_eq_some, Option.some.injEq] at hasked
    obtain ⟨⟨-, hindex⟩, rfl⟩ := hasked
    cases hstore
    have hpushes : Pushes engine code world _ [.integer] :=
      Expr.pushes_of_code index hindex hcode world
    obtain ⟨values, final, heval, hvalues, hperform⟩ := hpushes
    obtain ⟨number, rfl⟩ := eq_integer_of_stack hvalues
    refine ⟨.element symbol number, final, by simp [Expr.locate?, heval], hperform,
      fun value hvalue => ?_⟩
    cases value with
    | integer value =>
      have hdoes : ((Instruction.onSymbol .popArrayInt (.localVar symbol)).atSpan span).Does
          (fun _ => none) [.integer, .integer] [] := ⟨rfl, rfl⟩
      exact ⟨_, rfl, Instruction.perform_store hdoes rfl rfl⟩
    | string text => cases hvalue
    | long number => cases hvalue
  | gameVar name secondary ty symbol span =>
    obtain ⟨symbol, rfl, hkind⟩ := exists_of_bound Symbol.eq_of_game? htakes
    cases hcode
    cases hstore
    refine ⟨.gameVar secondary symbol, world, rfl, fun _ => rfl, fun value hvalue => ⟨_, rfl, ?_⟩⟩
    have hargs : [value].map Value.stack = [kind] := by simp [hvalue]
    refine Instruction.perform_store (does_popVar secondary span hkind) hargs ?_
    cases secondary <;> rfl
  | _ => cases htakes

/-- The stacks that targets take from, one after another. -/
theorem mapM_takes?_cons {target : Expr} {rest : List Expr} {kinds : List StackType}
    (h : (target :: rest).mapM Expr.takes? = some kinds) :
    ∃ kind others, target.takes? = some kind ∧ rest.mapM Expr.takes? = some others ∧
      kinds = kind :: others := by
  rw [List.mapM_cons] at h
  obtain ⟨kind, hkind, h⟩ := Option.bind_eq_some_iff.mp h
  obtain ⟨others, hothers, h⟩ := Option.bind_eq_some_iff.mp h
  exact ⟨kind, others, hkind, hothers, (Option.some.inj h).symm⟩

/-- The stores of a target and of those after it. -/
theorem ofList_stores_cons {target : Expr} {rest : List Expr} {code : List Instruction}
    (h : StraightCode.ofList ((target :: rest).reverse.map Expr.store) = .ok code) :
    ∃ before instruction, StraightCode.ofList (rest.reverse.map Expr.store) = .ok before ∧
      target.store = .ok instruction ∧ code = before ++ [instruction] := by
  rw [List.reverse_cons, List.map_append, List.map_singleton] at h
  obtain ⟨before, after, hbefore, hafter, rfl⟩ := StraightCode.ofList_append_eq_ok_iff.mp h
  obtain ⟨head, tail, hhead, htail, rfl⟩ := StraightCode.append_eq_ok_iff.mp hafter
  obtain ⟨instruction, hinstruction, rfl⟩ := StraightCode.single_eq_ok_iff.mp hhead
  cases htail
  exact ⟨before, instruction, hbefore, hinstruction, rfl⟩

/-- Whether code takes values of some stacks off, with what lies beneath them, and puts each at its
destination. -/
def Destination.ReceiveAll (engine : Engine World) (destinations : List Destination)
    (held : List Value) (code : List Instruction) (kinds : List StackType) : Prop :=
  ∀ values : List Value, values.map Value.stack = kinds → ∀ world, ∃ final,
    Destination.storeAll? engine destinations values world = some final ∧
    ∀ base, performAll engine code ⟨base.pushAll (held ++ values), world⟩ =
      some ⟨base, final⟩

/-- The first target is stored last, when what lies beneath its value is on top again. -/
theorem Destination.Receives.cons {destination : Destination} {destinations : List Destination}
    {instruction : Instruction} {code : List Instruction} {kind : StackType}
    {kinds : List StackType} (hfirst : destination.Receives engine instruction kind)
    (hrest : Destination.ReceiveAll engine destinations [] code kinds) :
    Destination.ReceiveAll engine (destination :: destinations) destination.held
      (code ++ [instruction]) (kind :: kinds) := by
  intro values hvalues world
  obtain ⟨value, others, rfl, hvalue, hothers⟩ := List.map_eq_cons_iff.mp hvalues
  obtain ⟨middle, hmiddle, hcode⟩ := hrest others hothers world
  obtain ⟨act, hact, hstore⟩ := hfirst value hvalue
  refine ⟨(act middle).2, by simp [storeAll?, hmiddle, hact], fun base => ?_⟩
  have hvalues : destination.held ++ value :: others =
      (destination.held ++ [value]) ++ ([] ++ others) := by simp
  rw [hvalues, Stacks.pushAll_append, performAll_append, hcode, Option.bind_some,
    performAll_singleton, hstore]

/-- The stores of targets other than elements take all values off and put each in its place. -/
theorem exists_receiveAll {targets : List Expr} {kinds : List StackType} {code : List Instruction}
    (htakes : targets.mapM Expr.takes? = some kinds)
    (hplain : ∀ target ∈ targets, target.isElement = false)
    (hcode : StraightCode.ofList (targets.reverse.map Expr.store) = .ok code) (world : World) :
    ∃ destinations, Expr.locateAll? engine targets world = some (destinations, world) ∧
      Destination.ReceiveAll engine destinations [] code kinds := by
  induction targets generalizing kinds code with
  | nil =>
    cases htakes
    cases hcode
    refine ⟨[], rfl, fun values hvalues world => ⟨world, ?_, fun base => ?_⟩⟩
    · rw [List.map_eq_nil_iff.mp hvalues, Destination.storeAll?]
    · rw [List.map_eq_nil_iff.mp hvalues, List.append_nil, Stacks.pushAll_nil, performAll_nil]
  | cons target rest ih =>
    rw [List.forall_mem_cons] at hplain
    obtain ⟨kind, others, hkind, hothers, rfl⟩ := mapM_takes?_cons htakes
    obtain ⟨before, instruction, hbefore, hstore, rfl⟩ := ofList_stores_cons hcode
    obtain ⟨destinations, hrest, hreceive⟩ := ih hothers hplain.2 hbefore
    have hindex : target.indexCode = .ok [] := by
      cases target with
      | element => cases hplain.1
      | _ => rfl
    obtain ⟨destination, final, hlocate, hheld, hfirst⟩ :=
      Expr.exists_locate? engine hkind hstore hindex world
    -- nothing was run to find the place, so nothing lies beneath the value
    obtain ⟨hempty, rfl⟩ : destination.held = [] ∧ final = world := by
      have hnothing := hheld {}
      cases destination with
      | element symbol index => cases hnothing
      | localVar symbol =>
        cases hnothing
        exact ⟨rfl, rfl⟩
      | gameVar secondary symbol =>
        cases hnothing
        exact ⟨rfl, rfl⟩
    refine ⟨destination :: destinations, by simp [Expr.locateAll?, hlocate, hrest], ?_⟩
    rw [← hempty]
    exact hfirst.cons hreceive

/-- An assignment with code has no element but in first place; the code is that of the index, of the
values and of the stores. -/
theorem exists_of_assignmentCode {first : Expr} {rest values : List Expr}
    {code : List Instruction} (h : assignmentCode [] (first :: rest) values = .ok code) :
    (∀ target ∈ rest, target.isElement = false) ∧
      first.indexCode ++ (Expr.codes [] values ++
        .ofList ((first :: rest).reverse.map Expr.store)) = .ok code := by
  unfold assignmentCode at h
  simp only at h
  cases hfind : rest.find? Expr.isElement with
  | some element =>
    rw [hfind] at h
    cases h
  | none =>
    rw [hfind] at h
    refine ⟨by simpa using List.find?_eq_none.mp hfind, ?_⟩
    cases first <;> exact h

/-- The code of an assignment does what the assignment means and leaves the stacks as they were. -/
theorem evalAssignment_of_code (engine : Engine World) {targets values : List Expr}
    {kinds : List StackType} {code : List Instruction} (hsome : targets ≠ [])
    (htakes : targets.mapM Expr.takes? = some kinds) (hleaves : Expr.leaveAll? values = some kinds)
    (hcode : assignmentCode [] targets values = .ok code) (world : World) :
    ∃ final, evalAssignment engine targets values world = some final ∧
      ∀ base, performAll engine code ⟨base, world⟩ = some ⟨base, final⟩ := by
  cases targets with
  | nil => exact absurd rfl hsome
  | cons first rest =>
    obtain ⟨hplain, hindexed⟩ := exists_of_assignmentCode hcode
    obtain ⟨before, after, hbefore, hafter, rfl⟩ := StraightCode.append_eq_ok_iff.mp hindexed
    obtain ⟨between, stores, hbetween, hstores, rfl⟩ := StraightCode.append_eq_ok_iff.mp hafter
    obtain ⟨kind, others, hkind, hothers, rfl⟩ := mapM_takes?_cons htakes
    obtain ⟨later, instruction, hlater, hstore, rfl⟩ := ofList_stores_cons hstores
    obtain ⟨destination, found, hlocate, hheld, hfirst⟩ :=
      Expr.exists_locate? engine hkind hstore hbefore world
    obtain ⟨destinations, hrest, hreceive⟩ := exists_receiveAll hothers hplain hlater found
    have hpushes : Pushes engine between found _ (kind :: others) :=
      Expr.pushes_of_codes values hleaves hbetween found
    obtain ⟨results, evaluated, heval, hresults, hperform⟩ := hpushes
    -- from here on the stacks hold what the first target needs, beneath all values
    obtain ⟨final, hfinal, hstored⟩ := hfirst.cons hreceive results hresults evaluated
    refine ⟨final, ?_, fun base => ?_⟩
    · simp [evalAssignment, Expr.locateAll?, hlocate, hrest, heval, hfinal]
    · rw [performAll_append, hheld, Option.bind_some, performAll_append, hperform,
        Option.bind_some, ← Stacks.pushAll_append, hstored]

namespace Lower

/-- An assignment with an element in a later place is refused and nothing is emitted. What is
emitted for any other assignment does what the assignment means, whatever the engine, and leaves the
stacks as they were. -/
theorem assign_delivers (context : Context) (targets values : List Expr) (start : LowerState) :
    ((∃ target ∈ targets.tail, target.isElement = true) →
      ∃ element ∈ targets.tail, element.isElement = true ∧
        assign context targets values start = .error ⟨.elementNotFirst, element.span⟩ start) ∧
    (context.handlers.entries = [] → targets ≠ [] → ∀ kinds,
      targets.mapM Expr.takes? = some kinds → Expr.leaveAll? values = some kinds →
      ∀ final, assign context targets values start = .ok () final →
        ∃ code, start.Emitted final code ∧
          ∀ {World : Type} (engine : Engine World) (world : World), ∃ after,
            evalAssignment engine targets values world = some after ∧
            ∀ base, performAll engine code ⟨base, world⟩ = some ⟨base, after⟩) := by
  constructor
  · rintro ⟨target, htarget, helement⟩
    obtain ⟨element, hfind⟩ := Option.isSome_iff_exists.mp
      (List.find?_isSome.mpr ⟨target, htarget, helement⟩)
    refine ⟨element, List.mem_of_find?_eq_some hfind, List.find?_some hfind, ?_⟩
    cases targets with
    | nil => cases htarget
    | cons first rest =>
      rw [List.tail_cons] at hfind
      unfold assign
      simp only [hfind]
      rfl
  · intro hhandlers hsome kinds htakes hleaves final hrun
    have hnone : context.handlers = Trailers.handlers [] := congrArg Handlers.mk hhandlers
    obtain ⟨code, hcode, hemitted⟩ := (assign_emits hnone targets values).emitted hrun
    exact ⟨code, hemitted, fun engine world =>
      evalAssignment_of_code engine hsome htakes hleaves hcode world⟩

/-- An element at a computed index, a string, and a game variable of the secondary owner. -/
private def mixedTargets : List Expr :=
  let find : Expr := .call ⟨.command, "find", false, .int,
    some (.command ⟨"find", [], [.int]⟩), .unknown⟩ []
  let index : Expr := .calculation (.arithmetic find .add
    (.literal (.int 2) .int none .unknown) .int .unknown) .int .unknown
  [.element "list" index (.scalar .obj) (some (.localVar ⟨"list", .array .obj⟩)) .unknown,
    .localVar "text" .string (some (.localVar ⟨"text", .string⟩)) .unknown,
    .gameVar "power" true .int (some (.gameVar ⟨"power", .player, .int, false⟩)) .unknown]

/-- A call that returns two values, and a third value. -/
private def pairAndNine : List Expr :=
  [.call ⟨.proc, "pair", false, .unit, some (.script ⟨.proc, "pair", [], [.scalar .obj, .string]⟩),
    .unknown⟩ [], .literal (.int 9) .int none .unknown]

theorem assign_delivers_mixedTargets :
    (∃ final code, assign ⟨⟨.proc, "deal", [], []⟩, {}, {}⟩ mixedTargets pairAndNine
        ⟨(Emitter.new false).start, {}, []⟩ = .ok () final ∧
      LowerState.Emitted ⟨(Emitter.new false).start, {}, []⟩ final code ∧
      ∀ base, performAll Engine.recorder code ⟨base, []⟩ =
        some ⟨base, [("find", []), ("pair", []), ("power", [.integer 9]), ("text", [.string ""]),
          ("list", [.integer 2, .integer 0])]⟩) ∧
    assign ⟨⟨.proc, "deal", [], []⟩, {}, {}⟩ mixedTargets.reverse pairAndNine
      ⟨(Emitter.new false).start, {}, []⟩ =
        .error ⟨.elementNotFirst, .unknown⟩ ⟨(Emitter.new false).start, {}, []⟩ := by
  constructor
  · obtain ⟨final, hfinal⟩ : ∃ final, assign ⟨⟨.proc, "deal", [], []⟩, {}, {}⟩ mixedTargets
        pairAndNine ⟨(Emitter.new false).start, {}, []⟩ = .ok () final := ⟨_, rfl⟩
    obtain ⟨code, hemitted, hcode⟩ := (assign_delivers _ _ _ _).2 rfl (by decide)
      [.integer, .string, .integer] (by decide) (by decide) final hfinal
    obtain ⟨after, heval, hperform⟩ := hcode Engine.recorder []
    have hafter : evalAssignment Engine.recorder mixedTargets pairAndNine [] =
        some [("find", []), ("pair", []), ("power", [.integer 9]), ("text", [.string ""]),
          ("list", [.integer 2, .integer 0])] := by
      decide
    rw [hafter] at heval
    cases heval
    exact ⟨final, code, hfinal, hemitted, hperform⟩
  · obtain ⟨element, helement, -, hrun⟩ := (assign_delivers ⟨⟨.proc, "deal", [], []⟩, {}, {}⟩
      mixedTargets.reverse pairAndNine ⟨(Emitter.new false).start, {}, []⟩).1 (by decide)
    rw [hrun]
    have hspan : ∀ target ∈ mixedTargets.reverse.tail, target.span = .unknown := by decide
    rw [hspan element helement]

end Lower

end ScriptBackend
