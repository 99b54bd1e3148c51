import ScriptBackend.Proofs.Lowering.Emission
import ScriptBackend.Proofs.Machine.Regions
import ScriptBackend.Proofs.Machine.Values

/-!
# Code of conditions decides them

A condition is decided from left to right: the second operand of a connective is tried only where
the first leaves the outcome open. Deciding a comparison evaluates its two operands.

The code of a condition, run by itself, computes the operands of exactly the comparisons that are
tried on the way, in their order, and leaves for one label when the condition holds and for the
other when it does not. The stacks are then as they were. So it never runs off its end. The labels
that are bound inside are fresh, so none of the branches to them can go astray.
-/

namespace ScriptBackend

variable {World : Type}

/-- Whether the outcome of its first operand settles a connective. -/
def Connective.settles : Connective → Bool → Bool
  | .and, holds => !holds
  | .or, holds => holds

/-- How a condition was decided. -/
structure Verdict (World : Type) where
  /-- Whether the condition holds. -/
  holds : Bool
  /-- The operands of the comparisons that were made, in order. -/
  evaluated : List Expr
  /-- The world after they were evaluated. -/
  world : World

/-- Decide a condition from left to right. -/
def Expr.verdict? (engine : Engine World) : Expr → World → Option (Verdict World)
  | .condition left (.compare comparison) right _, world => do
    let (values, world) ← Expr.evalAll engine [left, right] world
    let holds ← comparison.compare? values
    return ⟨holds, [left, right], world⟩
  | .condition left (.join connective) right _, world => do
    let first ← left.verdict? engine world
    if connective.settles first.holds then return first
    let second ← right.verdict? engine first.world
    return ⟨second.holds, first.evaluated ++ second.evaluated, second.world⟩
  | .paren inner _, world => inner.verdict? engine world
  | _, _ => none

/-- Whether an expression is built from comparisons by connectives and parentheses, where both
operands of each comparison leave one value on the stack of the left operand's type. -/
def Expr.isComparable : Expr → Bool
  | .condition left (.compare _) right _ =>
    match left.ty.stackType? with
    | some stack => left.leaves? = some [stack] ∧ right.leaves? = some [stack]
    | none => false
  | .condition left (.join _) right _ => left.isComparable && right.isComparable
  | .paren inner _ => inner.isComparable
  | _ => false

/-- A well-typed condition compares values of one stack. -/
theorem Expr.IsTest.isComparable_eq {e : Expr} (h : e.IsTest) : e.isComparable = true := by
  induction h with
  | join _ _ ihleft ihright => simp [Expr.isComparable, ihleft, ihright]
  | compare hty hleft hright =>
    simp [Expr.isComparable, hty, hleft.leaves?_eq, hright.leaves?_eq]
  | paren _ ih => rwa [Expr.isComparable]

/-- The code of expressions after expressions. -/
theorem Expr.codes_append {first second : List Expr} {before after : List Instruction}
    (hfirst : Expr.codes [] first = .ok before) (hsecond : Expr.codes [] second = .ok after) :
    Expr.codes [] (first ++ second) = .ok (before ++ after) := by
  induction first generalizing before with
  | nil =>
    cases hfirst
    exact hsecond
  | cons e rest ih =>
    rw [Expr.codes] at hfirst
    obtain ⟨head, tail, hhead, htail, rfl⟩ := StraightCode.append_eq_ok_iff.mp hfirst
    rw [List.cons_append, Expr.codes]
    exact StraightCode.append_eq_ok_iff.mpr
      ⟨head, tail ++ after, hhead, ih htail, List.append_assoc ..⟩

variable {engine : Engine World}

/-- Whether a run of a region from a position decides a condition: it computes the operands that are
evaluated, goes to the label of the outcome and leaves the stacks as they were. -/
def Decides (engine : Engine World) (region : List Item) (position : Nat) (e : Expr)
    (onTrue onFalse : Label) : Prop :=
  ∀ base world ran, ∃ verdict more, e.verdict? engine world = some verdict ∧
    Expr.codes [] verdict.evaluated = .ok (more.filter fun i => i.opcode.goesOn) ∧
    Region.Reaches engine region (.running position ⟨base, world⟩ ran)
      (Region.goTo region (if verdict.holds then onTrue else onFalse) ⟨base, verdict.world⟩
        (ran ++ more))

/-- A connective is decided by its second operand where the first leaves the outcome open. -/
theorem Decides.join {region : List Item} {left right : Expr} {connective : Connective}
    {span : Span} {whenTrue whenFalse onTrue onFalse next : Label} {position later : Nat}
    (hleft : Decides engine region position left whenTrue whenFalse)
    (hright : Decides engine region later right onTrue onFalse)
    (hlabels : ∀ holds : Bool, (if holds then whenTrue else whenFalse) =
      if connective.settles holds then (if holds then onTrue else onFalse) else next)
    (hnext : ∀ (machine : MachineState World) ran,
      Region.goTo region next machine ran = .running later machine ran) :
    Decides engine region position (.condition left (.join connective) right span) onTrue
      onFalse := by
  intro base world ran
  obtain ⟨first, before, hfirst, hbefore, hreaches⟩ := hleft base world ran
  -- the first operand went to the label of the whole where it settled the outcome, else to `next`
  rw [hlabels] at hreaches
  cases hsettles : connective.settles first.holds with
  | true =>
    rw [hsettles, if_pos rfl] at hreaches
    exact ⟨first, before, by simp [Expr.verdict?, hfirst, hsettles], hbefore, hreaches⟩
  | false =>
    obtain ⟨second, after, hsecond, hafter, hmore⟩ := hright base first.world (ran ++ before)
    refine ⟨⟨second.holds, first.evaluated ++ second.evaluated, second.world⟩, before ++ after,
      ?_, ?_, ?_⟩
    · simp [Expr.verdict?, hfirst, hsettles, hsecond]
    · rw [List.filter_append]
      exact Expr.codes_append hbefore hafter
    · rw [hsettles, if_neg Bool.false_ne_true, hnext] at hreaches
      simpa using hreaches.trans hmore

/-- The branch of a comparison is the one for the stack of its type. -/
theorem opcode_of_comparisonBranch {comparison : Comparison} {ty : Ty} {stack : StackType}
    {onTrue : Label} {span : Span} {branch : Instruction}
    (h : comparisonBranch comparison ty onTrue span = .ok branch)
    (hty : ty.stackType? = some stack) :
    comparison.branch? stack = some branch.opcode ∧ branch.label? = some onTrue := by
  unfold comparisonBranch at h
  rw [hty, Option.bind_some] at h
  cases hopcode : comparison.branch? stack with
  | none =>
    rw [hopcode] at h
    cases h
  | some opcode =>
    rw [hopcode] at h
    cases h
    exact ⟨rfl, rfl⟩

/-- The two branches of a comparison go to the label of its outcome and take its operands off. -/
theorem reaches_of_comparison {region before after : List Item} {comparison : Comparison}
    {ty : Ty} {stack : StackType} {onTrue onFalse : Label} {span : Span} {branch : Instruction}
    (hregion : region = before ++ ([branch, branchAlways onFalse span].map .code ++ after))
    (hty : ty.stackType? = some stack)
    (hbranch : comparisonBranch comparison ty onTrue span = .ok branch) {values : List Value}
    (hvalues : values.map Value.stack = [stack, stack]) (base : Stacks) (world : World)
    (ran : List Instruction) :
    ∃ holds more, comparison.compare? values = some holds ∧
      (more.filter fun i => i.opcode.goesOn) = [] ∧
      Region.Reaches engine region
        (.running (codeOf before).length ⟨base.pushAll values, world⟩ ran)
        (Region.goTo region (if holds then onTrue else onFalse) ⟨base, world⟩ (ran ++ more)) := by
  obtain ⟨hopcode, hlabel⟩ := opcode_of_comparisonBranch hbranch hty
  have hmade := Comparison.comparison?_of_branch? hopcode
  obtain ⟨holds, hholds⟩ := Comparison.exists_compare? hopcode hvalues
  have hcompared : Region.Reaches engine region
      (.running (codeOf before).length ⟨base.pushAll values, world⟩ ran) _ :=
    .single hregion _ ran
  rw [Region.runInstruction_of_comparison hmade hlabel hvalues hholds] at hcompared
  cases holds with
  | true => exact ⟨true, [branch], hholds, by simp [Opcode.goesOn_of_comparison? hmade], hcompared⟩
  | false =>
    have hafter : region =
        (before ++ [.code branch]) ++ .code (branchAlways onFalse span) :: after := by
      simp [hregion]
    have hbranched : Region.Reaches engine region
        (.running (codeOf (before ++ [.code branch])).length ⟨base, world⟩ (ran ++ [branch]))
        (Region.goTo region onFalse ⟨base, world⟩
          (ran ++ [branch] ++ [branchAlways onFalse span])) :=
      .single hafter _ _
    refine ⟨false, [branch, branchAlways onFalse span], hholds, ?_, hcompared.trans ?_⟩
    · rw [List.filter_cons_of_neg (by simp [Opcode.goesOn_of_comparison? hmade])]
      rfl
    · simpa using hbranched

/-- The operands of a comparison are computed and compared. -/
theorem Decides.comparison {region before after : List Item} {left right : Expr}
    {comparison : Comparison} {span : Span} {onTrue onFalse : Label}
    {first second : List Instruction} {branch : Instruction}
    (hregion : region =
      before ++ ((first ++ second ++ [branch, branchAlways onFalse span]).map .code ++ after))
    (hcompares : (Expr.condition left (.compare comparison) right span).isComparable = true)
    (hleft : left.code [] .value = .ok first) (hright : right.code [] .value = .ok second)
    (hbranch : comparisonBranch comparison left.ty onTrue span = .ok branch) :
    Decides engine region (codeOf before).length
      (.condition left (.compare comparison) right span) onTrue onFalse := by
  intro base world ran
  rw [Expr.isComparable] at hcompares
  cases hty : left.ty.stackType? with
  | none =>
    rw [hty] at hcompares
    cases hcompares
  | some stack =>
    rw [hty] at hcompares
    obtain ⟨hleaves, hleaves'⟩ := of_decide_eq_true hcompares
    have hcodes : Expr.codes [] [left, right] = .ok (first ++ second) := by
      rw [Expr.codes, Expr.codes, Expr.codes, hleft, hright]
      change Except.ok (first ++ (second ++ [])) = _
      rw [List.append_nil]
    have hkinds : Expr.leaveAll? [left, right] = some [stack, stack] := by
      simp [Expr.leaveAll?, hleaves, hleaves']
    have hpushes : Pushes engine (first ++ second) world _ [stack, stack] :=
      Expr.pushes_of_codes [left, right] hkinds hcodes world
    obtain ⟨values, middle, heval, hvalues, hperform⟩ := hpushes
    have hstraight : region = before ++ ((first ++ second).map .code ++
        ([branch, branchAlways onFalse span].map .code ++ after)) := by simp [hregion]
    have hcomputed := Region.reaches_of_performAll hstraight (hperform base) ran
    obtain ⟨holds, more, hholds, hmore, hcompared⟩ := reaches_of_comparison
      (hstraight.trans (List.append_assoc ..).symm) hty hbranch hvalues base middle
      (ran ++ (first ++ second))
    refine ⟨⟨holds, [left, right], middle⟩, first ++ second ++ more, ?_, ?_, ?_⟩
    · simp [Expr.verdict?, heval, hholds]
    · have hgoes := List.filter_eq_self.mpr (goesOn_of_performAll (hperform base))
      rw [List.filter_append, hmore, hgoes, List.append_nil]
      exact hcodes
    · rw [← List.append_assoc]
      exact hcomputed.trans hcompared

/-- The operands of a connective decide it, laid out around the label of the second. -/
theorem Decides.operands {region before first second after : List Item} {left right : Expr}
    {connective : Connective} {span : Span} {whenTrue whenFalse onTrue onFalse next : Label}
    (hregion : region = before ++ ((first ++ .bind next :: second) ++ after))
    (hnodup : (boundLabels region).Nodup)
    (hlabels : ∀ holds : Bool, (if holds then whenTrue else whenFalse) =
      if connective.settles holds then (if holds then onTrue else onFalse) else next)
    (hleft : ∀ after, region = before ++ (first ++ after) →
      Decides engine region (codeOf before).length left whenTrue whenFalse)
    (hright : ∀ before, region = before ++ (second ++ after) →
      Decides engine region (codeOf before).length right onTrue onFalse) :
    Decides engine region (codeOf before).length (.condition left (.join connective) right span)
      onTrue onFalse := by
  have hfirst := hleft (.bind next :: (second ++ after)) (by simp [hregion])
  have hsecond := hright (before ++ first ++ [.bind next]) (by simp [hregion])
  have hbound : region = (before ++ first) ++ .bind next :: (second ++ after) := by simp [hregion]
  refine hfirst.join hsecond hlabels fun machine ran => ?_
  rw [Region.goTo_of_split hbound hnodup]
  simp

/-- The code of a condition decides it, wherever it stands in a region that binds no label twice. -/
theorem TestCode.decides {e : Expr} {onTrue onFalse : Label} {items : List Item}
    (h : TestCode [] e onTrue onFalse items) (hcompares : e.isComparable = true)
    {region before after : List Item} (hregion : region = before ++ (items ++ after))
    (hnodup : (boundLabels region).Nodup) :
    Decides engine region (codeOf before).length e onTrue onFalse := by
  -- the region stays the whole one, so that labels of outer conditions keep their places
  induction h generalizing before after with
  | both _ _ ihleft ihright =>
    rw [Expr.isComparable, Bool.and_eq_true] at hcompares
    exact .operands hregion hnodup (by rintro (_ | _) <;> rfl)
      (fun _ => ihleft hcompares.1) (fun _ => ihright hcompares.2)
  | either _ _ ihleft ihright =>
    rw [Expr.isComparable, Bool.and_eq_true] at hcompares
    exact .operands hregion hnodup (by rintro (_ | _) <;> rfl)
      (fun _ => ihleft hcompares.1) (fun _ => ihright hcompares.2)
  | @compare left right comparison span onTrue onFalse first second branch hleft hright hbranch =>
    exact .comparison hregion hcompares hleft hright hbranch
  | paren _ ih =>
    rw [Expr.isComparable] at hcompares
    have hinner := ih hcompares hregion
    intro base world ran
    rw [Expr.verdict?]
    exact hinner base world ran

/-- The emitter with an open block: the entry block, where there is no block yet. -/
def Emitter.opened (emitter : Emitter) : Emitter :=
  if emitter.blocks = [] then emitter.bind .entry else emitter

namespace Emitter

variable (emitter : Emitter)

theorem blocks_opened_ne_nil : emitter.opened.blocks ≠ [] := by
  by_cases h : emitter.blocks = [] <;> simp [opened, bind, h]

/-- Opening a block gives no label. -/
@[simp] theorem labels_opened : emitter.opened.labels = emitter.labels := by
  by_cases h : emitter.blocks = [] <;> simp [opened, bind, h]

/-- A label may as well be taken before the block is opened. -/
theorem takeLabel_opened (base : String) :
    emitter.opened.takeLabel base = (emitter.takeLabel base).opened := by
  by_cases h : emitter.blocks = [] <;> simp [opened, bind, takeLabel, h]

/-- Code opens the block that it needs. -/
theorem emitAll_opened {code : List Instruction} (hcode : code ≠ []) :
    emitter.opened.emitAll code = emitter.emitAll code := by
  cases code with
  | nil => exact absurd rfl hcode
  | cons first rest =>
    have hfirst : emitter.opened.emit first = emitter.emit first := by
      by_cases h : emitter.blocks = [] <;>
        simp [opened, bind, emit, appendInstruction, Block.push, h]
    change (emitter.opened.emit first).emitAll rest = (emitter.emit first).emitAll rest
    rw [hfirst]

end Emitter

namespace Lower

variable {context : Context} {start final : LowerState}

/-- Whether a step that succeeds opens a block first, where no block is open yet. -/
def OpensFirst (step : Lower Unit) : Prop :=
  ∀ start final, step start = .ok () final →
    step { start with emitter := start.emitter.opened } = .ok () final

/-- What comes after a step that opens a block finds the block. -/
theorem OpensFirst.bind {first second : Lower Unit} (h : OpensFirst first) :
    OpensFirst (first >>= fun _ => second) := by
  intro start final hrun
  obtain ⟨_, middle, hfirst, hsecond⟩ := bind_eq_ok_iff.mp hrun
  exact bind_eq_ok_iff.mpr ⟨(), middle, h start middle hfirst, hsecond⟩

/-- Taking a label opens no block. -/
theorem OpensFirst.takeLabel {base : String} {step : Label → Lower Unit}
    (h : ∀ next, OpensFirst (step next)) : OpensFirst (takeLabel base >>= step) := by
  intro start final hrun
  obtain ⟨next, taken, htake, hstep⟩ := bind_eq_ok_iff.mp hrun
  cases htake
  refine bind_eq_ok_iff.mpr ⟨_, _, rfl, ?_⟩
  have hopened := h _ _ _ hstep
  rw [← Emitter.takeLabel_opened] at hopened
  simpa only [Emitter.nextLabel, Emitter.labels_opened] using hopened

/-- Emitting some code opens a block. -/
theorem Emits.opensFirst {step : Lower Unit} {code : StraightCode} (h : Emits step code id)
    (hcode : code ≠ .ok []) : OpensFirst step := by
  intro start final hrun
  obtain ⟨instructions, rfl, rfl⟩ := h.eq_ok_iff.mp hrun
  refine h.eq_ok_iff.mpr ⟨instructions, rfl, ?_⟩
  rw [Emitter.emitAll_opened _ (fun hnil => hcode (by rw [hnil]))]

/-- A condition opens a block first. -/
theorem condition_opensFirst (h : context.handlers = Trailers.handlers []) (e : Expr)
    (onTrue onFalse : Label) : OpensFirst (condition context e onTrue onFalse) := by
  induction e, onTrue, onFalse using condition.induct with
  | case1 left right span onTrue onFalse ihleft ihright =>
    rw [condition]
    exact .takeLabel fun next => (ihleft next).bind
  | case2 left right span onTrue onFalse ihleft ihright =>
    rw [condition]
    exact .takeLabel fun next => (ihleft next).bind
  | case3 left comparison right span onTrue onFalse =>
    rw [condition]
    have hemits := (expr_emits h .value left).bind ((expr_emits h .value right).bind
      ((emits_emitResult (comparisonBranch comparison left.ty onTrue span)).bind
        (emits_emit (branchAlways onFalse span))))
    refine hemits.opensFirst fun hnil => ?_
    obtain ⟨_, _, -, hrest, hnil⟩ := StraightCode.append_eq_ok_iff.mp hnil
    obtain ⟨_, _, -, hbranches, rfl⟩ := StraightCode.append_eq_ok_iff.mp hrest
    obtain ⟨_, _, -, ⟨⟩, rfl⟩ := StraightCode.append_eq_ok_iff.mp hbranches
    simp at hnil
  | case4 inner span onTrue onFalse ih =>
    rw [condition]
    exact ih
  | case5 e onTrue onFalse =>
    intro start final hrun
    rw [condition] at hrun
    · cases hrun
    all_goals assumption

/-- What is emitted for a condition, run by itself and whatever the engine, computes the operands of
the comparisons that are made, leaves for the label of the outcome and leaves the stacks as they
were. The labels that are bound inside were never given before. -/
theorem condition_decides (hhandlers : context.handlers.entries = []) {e : Expr}
    (hcompares : e.isComparable = true) {onTrue onFalse : Label}
    (hrun : condition context e onTrue onFalse start = .ok () final) :
    ∃ region, final.emitter.items = start.emitter.opened.items ++ region ∧
      (∀ label ∈ boundLabels region, ¬ start.emitter.labels.Issued label) ∧
      (onTrue ∉ boundLabels region → onFalse ∉ boundLabels region →
        ∀ {World : Type} (engine : Engine World) (base : Stacks) (world : World),
          ∃ verdict ran, e.verdict? engine world = some verdict ∧
            Expr.codes [] verdict.evaluated = .ok (ran.filter fun i => i.opcode.goesOn) ∧
            Region.Leaves engine region (.running 0 ⟨base, world⟩ [])
              (if verdict.holds then onTrue else onFalse) ⟨base, verdict.world⟩ ran) := by
  have hnone : context.handlers = Trailers.handlers [] := congrArg Handlers.mk hhandlers
  have hopened := condition_opensFirst hnone e onTrue onFalse start final hrun
  obtain ⟨region, given, hcode, hadds, hperm⟩ :=
    condition_adds hnone hopened start.emitter.blocks_opened_ne_nil
  have hnodup : (boundLabels region).Nodup := hperm.nodup_iff.mpr hadds.gives.nodup
  refine ⟨region, hadds.items_eq, fun label hlabel => ?_, fun htrue hfalse World engine => ?_⟩
  · have hunissued := hadds.gives.unissued label (hperm.mem_iff.mp hlabel)
    rwa [Emitter.labels_opened] at hunissued
  · intro base world
    have hdecides : Decides engine region (codeOf []).length e onTrue onFalse :=
      hcode.decides hcompares (show region = [] ++ (region ++ []) by simp) hnodup
    obtain ⟨verdict, ran, hverdict, hran, hreaches⟩ := hdecides base world []
    have hleaves : (if verdict.holds then onTrue else onFalse) ∉ boundLabels region := by
      cases verdict.holds <;> assumption
    rw [Region.goTo_of_not_mem hleaves] at hreaches
    exact ⟨verdict, ran, hverdict, hran, hreaches.leaves⟩

/-- A conjunction whose first comparison fails where nothing is found, or else a text that is not
`x`. -/
private def findOrRead : Expr :=
  let number (value : Int32) : Expr := .literal (.int value) .int none .unknown
  let run (name : String) (ty : Ty) : Expr :=
    .call ⟨.command, name, false, ty, some (.command ⟨name, [], [ty]⟩), .unknown⟩ []
  let found : Expr := .condition (run "find" .int) (.compare .greaterThan) (number 0) .unknown
  let late : Expr := .condition (run "time" .long) (.compare .lessThan)
    (.literal (.long 7) .long none .unknown) .unknown
  let named : Expr := .condition (run "read" .string) (.compare .notEquals)
    (.literal (.string "x") .string none .unknown) .unknown
  .condition (.paren (.condition found (.join .and) late .unknown) .unknown) (.join .or) named
    .unknown

theorem condition_decides_findOrRead :
    ∃ final region, condition ⟨⟨.proc, "test", [], []⟩, {}, {}⟩ findOrRead ⟨"yes"⟩ ⟨"no"⟩
        ⟨Emitter.new false, {}, []⟩ = .ok () final ∧
      final.emitter.items = .bind .entry :: region ∧
      ∀ base, ∃ ran, Region.Leaves Engine.recorder region (.running 0 ⟨base, []⟩ []) ⟨"yes"⟩
        ⟨base, [("find", []), ("read", [])]⟩ ran := by
  have hlabels : (match condition ⟨⟨.proc, "test", [], []⟩, {}, {}⟩ findOrRead ⟨"yes"⟩ ⟨"no"⟩
        ⟨Emitter.new false, {}, []⟩ with
      | .ok _ final => boundLabels final.emitter.items
      | .error _ _ => []) = [.entry, ⟨"condition_and_0"⟩, ⟨"condition_or_0"⟩] := by
    decide +kernel
  generalize hresult : condition _ findOrRead _ _ _ = result at hlabels
  cases result with
  | error error final => cases hlabels
  | ok value final =>
    obtain ⟨region, hitems, -, hruns⟩ := condition_decides rfl (by decide) hresult
    have hopened : (Emitter.new false).opened.items = [.bind .entry] := by decide
    rw [hopened] at hitems
    change boundLabels final.emitter.items = _ at hlabels
    rw [hitems, boundLabels_append] at hlabels
    have hinside : boundLabels region = [⟨"condition_and_0"⟩, ⟨"condition_or_0"⟩] :=
      (List.cons.inj hlabels).2
    refine ⟨final, region, rfl, hitems, fun base => ?_⟩
    obtain ⟨verdict, ran, hverdict, -, hleaves⟩ :=
      hruns (by rw [hinside]; decide) (by rw [hinside]; decide) Engine.recorder base []
    have hdecided : (findOrRead.verdict? Engine.recorder []).map (fun v => (v.holds, v.world)) =
        some (true, [("find", []), ("read", [])]) := by
      decide
    rw [hverdict, Option.map_some, Option.some.injEq, Prod.mk.injEq] at hdecided
    rw [hdecided.1, hdecided.2] at hleaves
    exact ⟨ran, hleaves⟩

end Lower

end ScriptBackend
