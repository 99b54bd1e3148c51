import ScriptBackend.Proofs.Code.Slots
import ScriptBackend.Proofs.Lowering.Laws

/-!
# Slots of declared variables

The table of a compiled script lists its parameters and then the variables that its body declares,
in the order of the declarations. A name has one slot, in the space of the variable that bore the
name first. So a variable has a slot in its own space exactly if the first variable of its name
lives in that space, and a name that is declared again for the values of another stack has none
there.

A handler that is not an argument trailer is taken to change the slots by declarations only, if its
arguments do.
-/

namespace ScriptBackend

namespace LocalTable

/-- Whether a variable is found in its own slot space, in a slot that the space has. -/
def Places (table : LocalTable) (symbol : LocalSymbol) : Prop :=
  ∃ slot, table.find? symbol.name = some slot ∧ slot.symbol.space = symbol.space ∧
    slot.index < table.count symbol.space

/-- Whether a table gives slots to variables in order, one to each name. -/
structure Assigns (table : LocalTable) (symbols : List LocalSymbol) : Prop where
  coherent : table.Coherent
  /-- The slot of a name is that of the first variable of the name. -/
  found : ∀ name, (table.find? name).map Slot.symbol =
    symbols.find? fun symbol => symbol.name = name

variable {table : LocalTable} {symbols : List LocalSymbol}

/-- A table without slots assigns nothing. -/
theorem assigns_empty : ({} : LocalTable).Assigns [] := ⟨.empty, fun _ => rfl⟩

/-- A variable whose name is new is the first of that name. -/
private theorem Assigns.found_take (h : table.Assigns symbols) {symbol : LocalSymbol}
    (hnew : table.find? symbol.name = none) (isParameter : Bool) (name : String) :
    ((table.take symbol isParameter).find? name).map Slot.symbol =
      (symbols ++ [symbol]).find? fun symbol => symbol.name = name := by
  rw [find?_take _ _ _ h.coherent.bounded, List.find?_append, ← h.found name]
  by_cases hname : symbol.name = name
  · subst hname
    simp [nextSlot, hnew]
  · simp [hname]

/-- A declared variable takes a slot or shares that of its name. -/
theorem Assigns.addLocal (h : table.Assigns symbols) (symbol : LocalSymbol) :
    (table.addLocal symbol).Assigns (symbols ++ [symbol]) := by
  refine ⟨h.coherent.addLocal symbol, fun name => ?_⟩
  by_cases hnamed : ∃ slot ∈ table.slots, slot.symbol.name = symbol.name
  · -- the name is among the earlier ones, so the new variable is not the first that bears it
    rw [h.coherent.addLocal_eq_self hnamed, List.find?_append, h.found name]
    by_cases hname : symbol.name = name
    · have hsome := h.coherent.isSome_find?_iff.mpr hnamed
      rw [← Option.isSome_map (f := Slot.symbol), h.found, hname] at hsome
      obtain ⟨first, hfirst⟩ := Option.isSome_iff_exists.mp hsome
      rw [hfirst]
      rfl
    · simp [hname]
  · rw [h.coherent.addLocal_eq_take hnamed]
    refine h.found_take ?_ false name
    rwa [← Option.not_isSome_iff_eq_none, h.coherent.isSome_find?_iff]

/-- Parameters of different names take a slot each. -/
theorem assigns_foldl_addParameter (parameters : List LocalSymbol) (h : table.Assigns symbols)
    (hnames : ((symbols ++ parameters).map LocalSymbol.name).Nodup) :
    (parameters.foldl addParameter table).Assigns (symbols ++ parameters) := by
  induction parameters generalizing table symbols with
  | nil => simpa using h
  | cons first rest ih =>
    have hnew : table.find? first.name = none := by
      rw [← Option.map_eq_none_iff, h.found, List.find?_eq_none]
      rw [List.map_append, List.nodup_append] at hnames
      intro symbol hsymbol hname
      exact hnames.2.2 _ (List.mem_map_of_mem hsymbol) first.name (by simp) (by simpa using hname)
    rw [List.append_cons] at hnames ⊢
    exact ih ⟨h.coherent.addParameter first, h.found_take hnew true⟩ hnames

/-- Declared variables take slots or share them. -/
theorem assigns_foldl_addLocal (locals : List LocalSymbol) (h : table.Assigns symbols) :
    (locals.foldl LocalTable.addLocal table).Assigns (symbols ++ locals) := by
  induction locals generalizing table symbols with
  | nil => simpa using h
  | cons first rest ih =>
    rw [List.append_cons]
    exact ih (h.addLocal first)

/-- The table of parameters of different names and of declared variables assigns them in order. -/
theorem assigns_ofSymbols {parameters : List LocalSymbol}
    (hnames : (parameters.map LocalSymbol.name).Nodup) (locals : List LocalSymbol) :
    (ofSymbols parameters locals).Assigns (parameters ++ locals) :=
  assigns_foldl_addLocal locals (assigns_foldl_addParameter parameters assigns_empty hnames)

/-- Each variable finds the slot of the first variable of its name, within the space of that one,
and it is placed exactly if it lives in the same space. -/
theorem Assigns.exists_slot (h : table.Assigns symbols) (hnumbered : table.Numbered)
    {symbol : LocalSymbol} (hmem : symbol ∈ symbols) :
    ∃ slot, table.find? symbol.name = some slot ∧
      symbols.find? (fun other => other.name = symbol.name) = some slot.symbol ∧
      slot.index < table.count slot.symbol.space ∧
      (table.Places symbol ↔ slot.symbol.space = symbol.space) := by
  have hfound := h.found symbol.name
  cases hslot : table.find? symbol.name with
  | none =>
    rw [hslot, Option.map_none, eq_comm, List.find?_eq_none] at hfound
    exact absurd (hfound symbol hmem) (by simp)
  | some slot =>
    have hinside : slot.index < table.count slot.symbol.space :=
      hnumbered.index_lt (h.coherent.mem_slots hslot)
    refine ⟨slot, rfl, by rw [← hfound, hslot, Option.map_some], hinside, ?_, fun hspace => ?_⟩
    · rintro ⟨other, hother, hspace, -⟩
      rw [hslot] at hother
      cases hother
      exact hspace
    · exact ⟨slot, hslot, hspace, hspace ▸ hinside⟩

end LocalTable

mutual

/-- The variables that a statement declares, in order. -/
def Stmt.declared : Stmt → List LocalSymbol
  | .block body _ => Stmt.declaredOf body
  | .ifThen _ onTrue _ => onTrue.declared
  | .ifElse _ onTrue onFalse _ => onTrue.declared ++ onFalse.declared
  | .whileLoop _ body _ => body.declared
  | .switch _ _ cases _ => Case.declaredOf cases
  | .declare _ _ symbol _ _ | .declareArray _ _ symbol _ _ =>
    (symbol.bind Symbol.local?).toList
  | .leave .. | .assign .. | .evaluate .. | .empty .. => []

/-- The variables that statements declare, in order. -/
def Stmt.declaredOf : List Stmt → List LocalSymbol
  | [] => []
  | first :: rest => first.declared ++ Stmt.declaredOf rest

/-- The variables that are declared in the cases of a switch, in order. -/
def Case.declaredOf : List Case → List LocalSymbol
  | [] => []
  | .mk _ _ body _ :: rest => Stmt.declaredOf body ++ Case.declaredOf rest

end

namespace Lower

variable {α β : Type}

/-- Whether a step changes the slots by declarations only. -/
def GivesSlots (step : Lower α) : Prop :=
  ∀ state, ∃ given : List LocalSymbol,
    (final step state).locals = given.foldl LocalTable.addLocal state.locals

/-- Two steps in order change the slots by declarations if both do. -/
private theorem GivesSlots.bind {step : Lower α} {next : α → Lower β} (hstep : GivesSlots step)
    (hnext : ∀ value, GivesSlots (next value)) : GivesSlots (step >>= next) := by
  intro state
  obtain ⟨given, hgiven⟩ := hstep state
  cases hrun : step state with
  | ok value middle =>
    rw [final_of_ok hrun] at hgiven
    obtain ⟨later, hlater⟩ := hnext value middle
    refine ⟨given ++ later, ?_⟩
    rw [final_bind_of_ok hrun, hlater, hgiven, List.foldl_append]
  | error error middle =>
    rw [final_of_error hrun] at hgiven
    exact ⟨given, by rw [final_bind_of_error hrun, hgiven]⟩

/-- It is a law of lowering that slots are changed by declarations only. -/
def givesSlots : StepLaw where
  Holds := GivesSlots
  pure _ _ := ⟨[], rfl⟩
  bind := GivesSlots.bind
  ofExcept outcome _ := ⟨[], by cases outcome <;> rfl⟩
  emit _ _ := ⟨[], rfl⟩
  markLine _ _ := ⟨[], rfl⟩
  takeLabel _ _ := ⟨[], rfl⟩
  bindLabel _ _ := ⟨[], rfl⟩
  takeTable _ := ⟨[], rfl⟩
  addCase _ _ _ := ⟨[], rfl⟩
  addLocal symbol _ := ⟨[symbol], rfl⟩

end Lower

/-- Whether every handler changes the slots by declarations only, if the arguments of its call
do. -/
def Handlers.GiveSlots (handlers : Handlers) : Prop :=
  ∀ entry ∈ handlers.entries, ∀ script head args, (∀ arg ∈ args, Lower.GivesSlots arg.2) →
    Lower.GivesSlots (entry.2.lowerCall script head args)

/-- Argument trailers leave the slots alone. -/
theorem Handlers.AreTrailers.giveSlots {handlers : Handlers} (h : handlers.AreTrailers) :
    handlers.GiveSlots :=
  Lower.givesSlots.handles_of_areTrailers h

namespace Lower

variable {α β : Type} {handlers : Handlers}

/-- Whether a step that succeeds declares some variables in order. Others may be declared between
them by handlers, but not by argument trailers. -/
def Declares (handlers : Handlers) (step : Lower α) (declared : List LocalSymbol) : Prop :=
  ∀ start value final, step start = .ok value final →
    ∃ given, final.locals = given.foldl LocalTable.addLocal start.locals ∧
      declared.Sublist given ∧ (handlers.AreTrailers → given = declared)

/-- A step that leaves the slots alone declares nothing. -/
private theorem declares_nil {step : Lower α}
    (h : ∀ state, (final step state).locals = state.locals) : Declares handlers step [] := by
  intro start value state hrun
  have hlocals := h start
  rw [final_of_ok hrun] at hlocals
  exact ⟨[], hlocals, .slnil, fun _ => rfl⟩

/-- Two steps in order declare what the first declares and then what the second declares. -/
private theorem Declares.bind {step : Lower α} {next : α → Lower β}
    {first second : List LocalSymbol} (hstep : Declares handlers step first)
    (hnext : ∀ value, Declares handlers (next value) second) :
    Declares handlers (step >>= next) (first ++ second) := by
  intro start result final hrun
  obtain ⟨value, middle, hfirst, hsecond⟩ := bind_eq_ok_iff.mp hrun
  obtain ⟨given, hgiven, hsub, hsame⟩ := hstep start value middle hfirst
  obtain ⟨later, hlater, hsubLater, hsameLater⟩ := hnext value middle result final hsecond
  refine ⟨given ++ later, ?_, hsub.append hsubLater, fun htrailers => ?_⟩
  · rw [List.foldl_append, ← hgiven, hlater]
  · rw [hsame htrailers, hsameLater htrailers]

/-- A step after one that declares nothing. -/
private theorem Declares.before {first : Lower Unit} {second : Lower α}
    {declared : List LocalSymbol} (hfirst : Declares handlers first [])
    (hsecond : Declares handlers second declared) :
    Declares handlers (first >>= fun _ => second) declared :=
  hfirst.bind fun _ => hsecond

/-- A step before one that declares nothing. -/
private theorem Declares.after {first : Lower Unit} {second : Lower α}
    {declared : List LocalSymbol} (hfirst : Declares handlers first declared)
    (hsecond : Declares handlers second []) :
    Declares handlers (first >>= fun _ => second) declared := by
  simpa using hfirst.bind fun _ => hsecond

/-- A computation declares nothing. -/
private theorem declares_ofExcept (outcome : Except LoweringError α) :
    Declares handlers (ofExcept outcome) [] :=
  declares_nil fun _ => by cases outcome <;> rfl

/-- Giving a variable its slot declares it. -/
private theorem declares_addLocal (symbol : LocalSymbol) :
    Declares handlers (addLocal symbol) [symbol] := by
  intro start value final hrun
  cases hrun
  exact ⟨[symbol], rfl, .refl _, fun _ => rfl⟩

/-- Code that is emitted declares nothing. -/
private theorem declares_of_emits {step : Lower Unit} {code : StraightCode}
    (h : Emits step code id) : Declares handlers step [] := by
  intro start value final hrun
  obtain ⟨instructions, -, rfl⟩ := h.eq_ok_iff.mp hrun
  exact ⟨[], rfl, .slnil, fun _ => rfl⟩

variable {context : Context}

/-- A step that gives slots only, and emits code where handlers are argument trailers, declares
nothing of its own. -/
private theorem declares_of_givesSlots {step : Lower Unit} (hgives : GivesSlots step)
    (hemits : ∀ trailers : Trailers, handlers = trailers.handlers → ∃ code, Emits step code id) :
    Declares handlers step [] := by
  intro start value state hrun
  by_cases htrailers : handlers.AreTrailers
  · obtain ⟨trailers, hhandlers⟩ := htrailers.exists_trailers
    obtain ⟨code, hcode⟩ := hemits trailers hhandlers
    exact declares_of_emits hcode start value state hrun
  · obtain ⟨given, hgiven⟩ := hgives start
    rw [final_of_ok hrun] at hgiven
    exact ⟨given, hgiven, List.nil_sublist given, fun h => absurd h htrailers⟩

/-- Value expressions declare nothing of their own. -/
private theorem expr_declares (hhandlers : context.handlers.GiveSlots) (place : Place) (e : Expr) :
    Declares context.handlers (expr context place e) [] :=
  declares_of_givesSlots (givesSlots.expr hhandlers place e) fun _ h => ⟨_, expr_emits h place e⟩

private theorem exprs_declares (hhandlers : context.handlers.GiveSlots) (es : List Expr) :
    Declares context.handlers (exprs context es) [] :=
  declares_of_givesSlots (givesSlots.exprs hhandlers es) fun _ h => ⟨_, exprs_emits h es⟩

/-- An assignment declares nothing of its own. -/
private theorem assign_declares (hhandlers : context.handlers.GiveSlots)
    (targets values : List Expr) :
    Declares context.handlers (assign context targets values) [] :=
  declares_of_givesSlots (givesSlots.assign hhandlers targets values) fun _ h =>
    ⟨_, assign_emits h targets values⟩

/-- A condition declares nothing of its own. -/
private theorem condition_declares (hhandlers : context.handlers.GiveSlots) (test : Expr)
    (onTrue onFalse : Label) :
    Declares context.handlers (condition context test onTrue onFalse) [] := by
  fun_induction condition context test onTrue onFalse with
  | case1 left right span onTrue onFalse ihLeft ihRight =>
    exact (declares_nil fun _ => rfl).bind fun next =>
      (ihLeft next).before ((declares_nil fun _ => rfl).before ihRight)
  | case2 left right span onTrue onFalse ihLeft ihRight =>
    exact (declares_nil fun _ => rfl).bind fun next =>
      (ihLeft next).before ((declares_nil fun _ => rfl).before ihRight)
  | case3 left comparison right span onTrue onFalse =>
    refine (expr_declares hhandlers .value left).before ?_
    refine (expr_declares hhandlers .value right).before ?_
    exact (declares_of_emits (emits_emitResult _)).before (declares_nil fun _ => rfl)
  | case4 inner span onTrue onFalse ih => exact ih
  | case5 other => exact declares_nil fun _ => rfl

/-- A declaration that is bound to a variable declares it. -/
private theorem declares_declaredLocal {name : String} {symbol : Option Symbol} {span : Span}
    {next : LocalSymbol → Lower Unit}
    (h : ∀ declared, Declares handlers (next declared) [declared]) :
    Declares handlers (ofExcept (declaredLocal name symbol span) >>= next)
      (symbol.bind Symbol.local?).toList := by
  cases hdeclared : declaredLocal name symbol span with
  | error error =>
    intro start value final hrun
    cases hrun
  | ok declared =>
    rw [declaredLocal_eq_ok_iff] at hdeclared
    subst hdeclared
    exact h declared

/-- Taking the label of a case declares nothing. -/
private theorem caseLabel_declares (fallback : Option Label) (isDefault : Bool) :
    Declares handlers (caseLabel fallback isDefault) [] := by
  refine declares_nil fun _ => ?_
  cases fallback <;> cases isDefault <;> rfl

/-- Setting aside the label of a default case declares nothing. -/
private theorem setAside_declares (cases : List Case) : Declares handlers (setAside cases) [] := by
  refine declares_nil fun _ => ?_
  unfold setAside
  split <;> rfl

/-- Passing the cases of a switch declares nothing. -/
private theorem skip_declares (cases : List Case) (done : Label) (fallback : Option Label)
    (span : Span) : Declares handlers (skip cases done fallback span) [] := by
  refine declares_nil fun _ => ?_
  unfold skip
  split <;> rfl

mutual

/-- A statement declares its variables. -/
private theorem stmt_declares (hhandlers : context.handlers.GiveSlots) :
    ∀ s : Stmt, Declares context.handlers (stmt context s) s.declared
  | .block body _ => by
    rw [stmt, Stmt.declared]
    exact stmts_declares hhandlers body
  | .ifThen test onTrue span => by
    rw [stmt, Stmt.declared]
    refine (declares_nil fun _ => rfl).before ?_
    refine (declares_nil fun _ => rfl).bind fun whenTrue => ?_
    refine (declares_nil fun _ => rfl).bind fun done => ?_
    refine (condition_declares hhandlers test whenTrue done).before ?_
    refine (declares_nil fun _ => rfl).before ((stmt_declares hhandlers onTrue).after ?_)
    exact declares_nil fun _ => rfl
  | .ifElse test onTrue onFalse span => by
    rw [stmt, Stmt.declared]
    refine (declares_nil fun _ => rfl).before ?_
    refine (declares_nil fun _ => rfl).bind fun whenTrue => ?_
    refine (declares_nil fun _ => rfl).bind fun whenFalse => ?_
    refine (declares_nil fun _ => rfl).bind fun done => ?_
    refine (condition_declares hhandlers test whenTrue whenFalse).before ?_
    refine (declares_nil fun _ => rfl).before ((stmt_declares hhandlers onTrue).bind fun _ => ?_)
    refine (declares_nil fun _ => rfl).before ((declares_nil fun _ => rfl).before ?_)
    exact (stmt_declares hhandlers onFalse).after (declares_nil fun _ => rfl)
  | .whileLoop test body span => by
    rw [stmt, Stmt.declared]
    refine (declares_nil fun _ => rfl).before ?_
    refine (declares_nil fun _ => rfl).bind fun start => ?_
    refine (declares_nil fun _ => rfl).bind fun inside => ?_
    refine (declares_nil fun _ => rfl).bind fun done => ?_
    refine (declares_nil fun _ => rfl).before ?_
    refine (condition_declares hhandlers test inside done).before ?_
    refine (declares_nil fun _ => rfl).before ((stmt_declares hhandlers body).after ?_)
    exact declares_nil fun _ => rfl
  | .switch ty subject cases span => by
    rw [stmt_switch, Stmt.declared]
    refine (declares_nil fun _ => rfl).before ?_
    refine (declares_nil fun _ => rfl).bind fun table => ?_
    refine (declares_nil fun _ => rfl).bind fun done => ?_
    refine (setAside_declares cases).bind fun fallback => ?_
    refine (expr_declares hhandlers .value subject).before ((declares_nil fun _ => rfl).before ?_)
    refine (skip_declares cases done fallback span).before ?_
    exact (switchCases_declares hhandlers table done fallback cases).after
      (declares_nil fun _ => rfl)
  | .leave values span => by
    rw [stmt, Stmt.declared]
    exact (declares_nil fun _ => rfl).before ((exprs_declares hhandlers values).before
      (declares_nil fun _ => rfl))
  | .assign targets values span => by
    rw [stmt, Stmt.declared]
    exact (declares_nil fun _ => rfl).before (assign_declares hhandlers targets values)
  | .declare name ty symbol initial span => by
    rw [stmt, Stmt.declared]
    refine (declares_nil fun _ => rfl).before (declares_declaredLocal fun declared => ?_)
    have hstore : Declares context.handlers (addLocal declared >>= fun _ =>
        emit ((Instruction.onSymbol .popLocal (.localVar declared)).atSpan span)) [declared] :=
      (declares_addLocal declared).after (declares_nil fun _ => rfl)
    cases initial with
    | some value => exact (expr_declares hhandlers .value value).before hstore
    | none => exact (declares_of_emits (emits_emitResult (ty.defaultPush span))).before hstore
  | .declareArray name ty symbol size span => by
    rw [stmt, Stmt.declared]
    refine (declares_nil fun _ => rfl).before (declares_declaredLocal fun declared => ?_)
    cases ty.isArray with
    | true =>
      exact (expr_declares hhandlers .value size).before
        ((declares_addLocal declared).after (declares_nil fun _ => rfl))
    | false =>
      intro start value final hrun
      cases hrun
  | .evaluate value span => by
    rw [stmt, Stmt.declared]
    exact (declares_nil fun _ => rfl).before ((expr_declares hhandlers .value value).before
      (declares_of_emits (emits_emitResults _)))
  | .empty span => by
    rw [stmt, Stmt.declared]
    exact declares_nil fun _ => rfl

/-- Statements declare their variables in order. -/
private theorem stmts_declares (hhandlers : context.handlers.GiveSlots) :
    ∀ ss : List Stmt, Declares context.handlers (stmts context ss) (Stmt.declaredOf ss)
  | [] => by
    rw [stmts, Stmt.declaredOf]
    exact declares_nil fun _ => rfl
  | first :: rest => by
    rw [stmts, Stmt.declaredOf]
    exact (stmt_declares hhandlers first).bind fun _ => stmts_declares hhandlers rest

/-- The cases of a switch declare their variables in order. -/
private theorem switchCases_declares (hhandlers : context.handlers.GiveSlots) (table : Nat)
    (done : Label) (fallback : Option Label) : ∀ cases : List Case,
    Declares context.handlers (switchCases context table done fallback cases)
      (Case.declaredOf cases)
  | [] => by
    rw [switchCases, Case.declaredOf]
    exact declares_nil fun _ => rfl
  | .mk keys isDefault body span :: rest => by
    rw [switchCases, Case.declaredOf]
    refine (caseLabel_declares fallback isDefault).bind fun label => ?_
    refine (declares_ofExcept _).bind fun constants => ?_
    refine (declares_nil fun _ => rfl).before ((declares_nil fun _ => rfl).before ?_)
    refine (stmts_declares hhandlers body).bind fun _ => (declares_nil fun _ => rfl).before ?_
    exact switchCases_declares hhandlers table done fallback rest

end

/-- A script body declares the variables of its statements. -/
theorem body_declares (hhandlers : context.handlers.GiveSlots) (statements : List Stmt)
    (span : Span) :
    Declares context.handlers (body context statements span) (Stmt.declaredOf statements) :=
  (stmts_declares hhandlers statements).after (declares_of_emits (defaultLeave_emits context span))

end Lower

namespace Generator

variable {generator : Generator} {decl : ScriptDecl} {script : CompiledScript}

/-- The table of a compiled script lists its parameters, and then the variables that its body and
its handlers declare. -/
theorem exists_locals_eq (hhandlers : generator.handlers.GiveSlots)
    (hrun : (generator.script decl).1 = .ok script) :
    ∃ locals, script.locals = .ofSymbols decl.parameters locals ∧
      (Stmt.declaredOf decl.body).Sublist locals ∧
      (generator.handlers.AreTrailers → locals = Stmt.declaredOf decl.body) := by
  obtain ⟨final, hbody, rfl⟩ := exists_final_of_script hrun
  exact Lower.body_declares hhandlers decl.body decl.span _ _ _ hbody

/-- Every parameter and every declared variable of a script finds the slot of the first variable of
its name, within the space of that one. It has a slot in its own space exactly if the first variable
of its name lives there. -/
theorem script_places_iff (hhandlers : generator.handlers.GiveSlots)
    (hnames : (decl.parameters.map LocalSymbol.name).Nodup)
    (hrun : (generator.script decl).1 = .ok script) :
    ∃ locals, (Stmt.declaredOf decl.body).Sublist locals ∧
      (generator.handlers.AreTrailers → locals = Stmt.declaredOf decl.body) ∧
      ∀ symbol ∈ decl.parameters ++ locals, ∃ slot,
        script.locals.find? symbol.name = some slot ∧
        (decl.parameters ++ locals).find? (fun other => other.name = symbol.name) =
          some slot.symbol ∧
        slot.index < script.locals.count slot.symbol.space ∧
        (script.locals.Places symbol ↔ slot.symbol.space = symbol.space) := by
  obtain ⟨locals, hlocals, hdeclared, hsame⟩ := exists_locals_eq hhandlers hrun
  refine ⟨locals, hdeclared, hsame, fun symbol hsymbol => ?_⟩
  rw [hlocals]
  exact (LocalTable.assigns_ofSymbols hnames locals).exists_slot (.ofSymbols _ _) hsymbol

/-- A script that declares one name in both arms of a conditional, for values of one stack, and a
string in the second arm. -/
private def declareInArms : ScriptDecl :=
  let count : LocalSymbol := ⟨"count", .int⟩
  let value : Expr := .localVar "count" .int (some (.localVar count)) .unknown
  let declare (name : String) (ty : Ty) : Stmt :=
    .declare name ty (some (.localVar ⟨name, ty⟩)) none .unknown
  ⟨⟨.proc, "pick", [.int], []⟩, [count], [
    .ifElse (.condition value (.compare .greaterThan) value .unknown)
      (.block [declare "best" .int, declare "label" .string] .unknown)
      (.block [declare "text" .string, declare "best" (.scalar .obj)] .unknown) .unknown], .unknown⟩

theorem script_places_iff_declareInArms :
    ∃ script, (({} : Generator).script declareInArms).1 = .ok script ∧
      script.locals.Places ⟨"best", .scalar .obj⟩ ∧ script.locals.Places ⟨"text", .string⟩ := by
  obtain ⟨script, hscript⟩ := exists_script_of_isOk
    (show (({} : Generator).script declareInArms).1.isOk = true by decide +kernel)
  have htrailers : ({} : Generator).handlers.AreTrailers := by simp [Handlers.AreTrailers]
  obtain ⟨locals, -, hsame, hslots⟩ :=
    script_places_iff htrailers.giveSlots (by decide +kernel) hscript
  rw [hsame htrailers] at hslots
  refine ⟨script, hscript, ?_, ?_⟩
  · obtain ⟨slot, -, hfirst, -, hplaces⟩ := hslots ⟨"best", .scalar .obj⟩ (by decide +kernel)
    have hsymbol : slot.symbol = ⟨"best", .int⟩ := Option.some.inj (hfirst.symm.trans rfl)
    rw [hplaces, hsymbol]
    rfl
  · obtain ⟨slot, -, hfirst, -, hplaces⟩ := hslots ⟨"text", .string⟩ (by decide +kernel)
    have hsymbol : slot.symbol = ⟨"text", .string⟩ := Option.some.inj (hfirst.symm.trans rfl)
    rw [hplaces, hsymbol]

/-- A script that declares one name for an integer and, in a block after that, for a string. -/
private def intThenString : ScriptDecl :=
  ⟨⟨.proc, "twice", [], []⟩, [], [
    .block [.declare "x" .int (some (.localVar ⟨"x", .int⟩)) none .unknown] .unknown,
    .block [.declare "x" .string (some (.localVar ⟨"x", .string⟩)) none .unknown] .unknown],
    .unknown⟩

theorem not_always_placed_intThenString :
    ¬∀ (generator : Generator) (decl : ScriptDecl) (script : CompiledScript),
      (decl.parameters.map LocalSymbol.name).Nodup → (generator.script decl).1 = .ok script →
      ∀ symbol ∈ decl.parameters ++ Stmt.declaredOf decl.body, script.locals.Places symbol := by
  intro h
  have hlocals : (({} : Generator).script intThenString).1.toOption.map CompiledScript.locals =
      some (.ofSymbols [] [⟨"x", .int⟩]) := by decide +kernel
  obtain ⟨script, hscript⟩ := exists_script_of_isOk
    (show (({} : Generator).script intThenString).1.isOk = true by decide +kernel)
  rw [hscript] at hlocals
  obtain ⟨slot, hslot, hspace, -⟩ :=
    h {} intThenString script (by decide +kernel) hscript ⟨"x", .string⟩ (by decide +kernel)
  rw [Option.some.inj hlocals] at hslot
  cases hslot
  cases hspace

end Generator

end ScriptBackend
