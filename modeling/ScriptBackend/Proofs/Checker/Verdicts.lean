import ScriptBackend.Proofs.Checker.Corruption
import ScriptBackend.Proofs.Checker.Independence

/-!
# Verdicts on corruption agree

A summary is found while the script counts as being summarised, so its calls to itself count as
nothing; a report and a search for a path count them with the finished summary. The verdict is the
same: a call to itself that corrupts a pointer adds nothing where the script exits with it corrupted
anyway, and one that restores a pointer takes away only paths that there were none of. So where no
cycle of calls leads through two or more scripts, summary, search and report agree on every pointer.
-/

namespace ScriptBackend

/-- Whether an error says that a pointer is corrupted. -/
def Diagnostic.IsErrorAbout (diagnostic : Diagnostic) (pointer : Pointer) : Prop :=
  diagnostic.severity = .error ∧
    ∃ rest, diagnostic.message = pointer.name ++ " is corrupted by '" ++ rest

/-- Whether context says that a script exits with a pointer corrupted. -/
def Diagnostic.IsInfoAbout (diagnostic : Diagnostic) (pointer : Pointer) : Prop :=
  diagnostic.severity = .info ∧
    ∃ start, diagnostic.message = start ++ " exits here with " ++ pointer.name ++ " corrupted"

namespace PointerSet

/-- The set of one pointer has the pointer's name. -/
@[simp] theorem name?_single (pointer : Pointer) : (single pointer).name? = some pointer.name := by
  cases pointer <;> rfl

/-- A set that goes by the name of a pointer is the set of that pointer. -/
theorem eq_single_of_name {set : PointerSet} {pointer : Pointer}
    (h : set.name?.getD "pointer" = pointer.name) : set = single pointer := by
  unfold name? at h
  cases hfound : Pointer.all.find? fun named => single named = set with
  | none =>
    rw [hfound] at h
    cases pointer <;> exact absurd h (by decide)
  | some named =>
    rw [hfound] at h
    have hname : Pointer.ofName? named.name = Pointer.ofName? pointer.name := congrArg _ h
    have hofName (other : Pointer) : Pointer.ofName? other.name = some other := by
      cases other <;> rfl
    rw [hofName, hofName, Option.some.injEq] at hname
    have hset : single named = set := by simpa using List.find?_some hfound
    rw [← hset, hname]

/-- What a set goes by has no blank. -/
private theorem blank_not_mem_name (set : PointerSet) :
    ∀ char ∈ (set.name?.getD "pointer").toList, (char != ' ') = true := by
  rw [← List.all_eq_true]
  unfold name?
  cases Pointer.all.find? fun named => single named = set with
  | none => rfl
  | some named => cases named <;> rfl

end PointerSet

namespace CorruptionPath

/-- The report of a path has an error about a pointer exactly when the path is about it. -/
theorem exists_isErrorAbout_iff {path : CorruptionPath} {graph : FlowGraph} {symbol : ScriptSymbol}
    {pointer : Pointer} :
    (∃ diagnostic ∈ path.diagnostics graph symbol, diagnostic.IsErrorAbout pointer) ↔
      path.pointer = .single pointer := by
  constructor
  · rintro ⟨diagnostic, hmem, hseverity, rest, hmessage⟩
    have hsingle := PointerSet.name?_single pointer
    have hblank := PointerSet.blank_not_mem_name (.single pointer)
    rw [hsingle, Option.getD_some] at hblank
    rcases List.mem_pair.mp hmem with rfl | rfl
    · -- the first word of the message is the name
      have hword := congrArg (fun text : String => text.toList.takeWhile (· != ' ')) hmessage
      simp only [Diagnostic.error, String.toList_append, List.append_assoc,
        List.takeWhile_append_of_pos (PointerSet.blank_not_mem_name path.pointer),
        List.takeWhile_append_of_pos hblank] at hword
      refine PointerSet.eq_single_of_name (String.toList_inj.mp ?_)
      simpa using hword
    · cases hseverity
  · intro hpointer
    refine ⟨_, List.mem_cons_self, rfl, ?_⟩
    rw [hpointer, PointerSet.name?_single]
    exact ⟨(graph.node path.trail.head).text ++ "' and not set again before " ++ symbol.text ++
      " exits", by simp [Diagnostic.error, String.append_assoc]⟩

/-- The report of a path that is about a pointer is an error about it and then context about it. -/
theorem exists_diagnostics_eq {path : CorruptionPath} {pointer : Pointer}
    (h : path.pointer = .single pointer) (graph : FlowGraph) (symbol : ScriptSymbol) :
    ∃ error info : Diagnostic, path.diagnostics graph symbol = [error, info] ∧
      error.IsErrorAbout pointer ∧ info.IsInfoAbout pointer := by
  obtain ⟨found, hfound, habout⟩ :=
    (@exists_isErrorAbout_iff path graph symbol pointer).mpr h
  refine ⟨_, _, rfl, ?_, rfl, symbol.text, ?_⟩
  · rcases List.mem_pair.mp hfound with rfl | rfl
    · exact habout
    · cases habout.1
  · rw [h, PointerSet.name?_single]
    rfl

end CorruptionPath

/-- Whether a table comes from another one by putting given effects in some places that have
none. -/
def Fills (effects : Effects) (table filled : List Effects) : Prop :=
  ∀ node, filled.getD node .none = table.getD node .none ∨
    (table.getD node .none = .none ∧ filled.getD node .none = effects)

namespace Fills

variable {effects : Effects} {graph : FlowGraph} {table filled : List Effects}
  {pointers : PointerSet}

/-- No effects restore nothing. -/
private theorem restores_none (pointers : PointerSet) : Effects.none.restores pointers = false := by
  change (PointerSet.contains ∅ pointers && !PointerSet.contains ∅ pointers) = false
  exact Bool.and_not_self _

/-- Effects that corrupt a pointer take no path to an exit away. -/
theorem isSome_of_contains (h : Fills effects table filled)
    (hcorrupts : effects.corrupted.contains pointers = true)
    (hpath : (graph.corruptionPath? table pointers).isSome = true) :
    (graph.corruptionPath? filled pointers).isSome = true := by
  refine FlowGraph.corruptionPath?_isSome_mono (fun node hnode => ?_) (fun node hnode => ?_) hpath
  · rcases h node with hsame | ⟨-, hfilled⟩
    · rwa [FlowGraph.corruptsAt, hsame]
    · rwa [FlowGraph.corruptsAt, hfilled]
  · rcases h node with hsame | ⟨-, hfilled⟩
    · rwa [FlowGraph.restoresAt, hsame] at hnode
    · rw [FlowGraph.restoresAt, hfilled, Effects.restores, hcorrupts] at hnode
      simp at hnode

/-- Effects that do not corrupt a pointer add no path to an exit. -/
theorem isSome_of_not_contains (h : Fills effects table filled)
    (hcorrupts : ¬effects.corrupted.contains pointers = true)
    (hpath : (graph.corruptionPath? filled pointers).isSome = true) :
    (graph.corruptionPath? table pointers).isSome = true := by
  refine FlowGraph.corruptionPath?_isSome_mono (fun node hnode => ?_) (fun node hnode => ?_) hpath
  · rcases h node with hsame | ⟨-, hfilled⟩
    · rwa [FlowGraph.corruptsAt, ← hsame]
    · rw [FlowGraph.corruptsAt, hfilled] at hnode
      exact absurd hnode hcorrupts
  · rcases h node with hsame | ⟨hnone, -⟩
    · rwa [FlowGraph.restoresAt, ← hsame] at hnode
    · rw [FlowGraph.restoresAt, hnone, restores_none] at hnode
      cases hnode

/-- Filling a table with its own summary changes no verdict on a pointer. -/
theorem isSome_iff_contains (h : Fills (graph.summary table) table filled) {pointer : Pointer} :
    (graph.corruptionPath? filled (.single pointer)).isSome = true ↔
      (graph.summary table).corrupted.contains (.single pointer) = true := by
  constructor
  · intro hpath
    by_contra hnot
    exact hnot (FlowGraph.contains_corrupted_summary_iff.mpr (h.isSome_of_not_contains hnot hpath))
  · intro hcontains
    exact h.isSome_of_contains hcontains (FlowGraph.contains_corrupted_summary_iff.mp hcontains)

/-- Filling a table with effects that corrupt no unnamed bit leaves the unnamed bits that are
corrupted somewhere as they are. -/
private theorem unnamed_eq (h : Fills effects table filled)
    (hnamed : effects.corrupted.unnamed.isEmpty = true) :
    (FlowGraph.corruptedSomewhere filled).unnamed =
      (FlowGraph.corruptedSomewhere table).unnamed := by
  have hzero : effects.corrupted.bits &&& ~~~PointerSet.namedBits = 0 := beq_iff_eq.mp hnamed
  refine congrArg PointerSet.mk (BitVec.eq_of_getLsbD_eq fun i _ => ?_)
  rw [BitVec.getLsbD_and, BitVec.getLsbD_and]
  cases hunnamed : (~~~PointerSet.namedBits).getLsbD i with
  | false => simp
  | true =>
    have hbit : effects.corrupted.bits.getLsbD i = false := by
      have hand := congrArg (fun bits : BitVec 32 => bits.getLsbD i) hzero
      simpa [hunnamed] using hand
    have hiff : (FlowGraph.corruptedSomewhere filled).bits.getLsbD i = true ↔
        (FlowGraph.corruptedSomewhere table).bits.getLsbD i = true := by
      rw [FlowGraph.getLsbD_corruptedSomewhere_iff, FlowGraph.getLsbD_corruptedSomewhere_iff]
      refine exists_congr fun node => ?_
      rcases h node with hsame | ⟨hnone, hfilled⟩
      · rw [hsame]
      · rw [hnone, hfilled, hbit]
        simp [Effects.none]
    rw [Bool.and_true, Bool.and_true]
    exact Bool.eq_iff_iff.mpr hiff

/-- A table that is filled with its own summary, which corrupts no unnamed bit, has one path for
each pointer that the script exits with corrupted, in bit order. -/
theorem corruptedAtExit_eq (h : Fills (graph.summary table) table filled)
    (hnamed : (graph.summary table).corrupted.unnamed.isEmpty = true) :
    graph.corruptedAtExit filled =
      Pointer.all.filterMap fun pointer => graph.corruptionPath? filled (.single pointer) := by
  rw [FlowGraph.corruptedAtExit_eq, h.unnamed_eq hnamed]
  cases hempty : (FlowGraph.corruptedSomewhere table).unnamed.isEmpty with
  | true => simp
  | false =>
    have hsummary : ¬(graph.summary table).corrupted.contains
        (FlowGraph.corruptedSomewhere table).unnamed = true := by
      intro hcontains
      have hzero : (graph.summary table).corrupted.bits &&& ~~~PointerSet.namedBits = 0 :=
        beq_iff_eq.mp hnamed
      have hand : (graph.summary table).corrupted.bits &&&
          (FlowGraph.corruptedSomewhere table).unnamed.bits =
          (FlowGraph.corruptedSomewhere table).unnamed.bits := beq_iff_eq.mp hcontains
      have hnone : (FlowGraph.corruptedSomewhere table).unnamed.bits = 0 := by
        rw [← hand, PointerSet.unnamed, BitVec.and_comm _ (~~~PointerSet.namedBits),
          ← BitVec.and_assoc, hzero]
        exact BitVec.zero_and
      rw [PointerSet.isEmpty, hnone] at hempty
      cases hempty
    have hpath : graph.corruptionPath? filled (FlowGraph.corruptedSomewhere table).unnamed =
        none := by
      rw [← Option.not_isSome_iff_eq_none]
      intro hsome
      refine hsummary (FlowGraph.contains_corrupted_summary ?_
        (h.isSome_of_not_contains hsummary hsome))
      exact PointerSet.mem_members_iff.mpr (.inr ⟨rfl, hempty⟩)
    simp [hpath]

end Fills

/-- What is found for the members of a list pairs up with the members that something is found
for. -/
private theorem forall₂_filterMap {α β : Type} {relation : α → β → Prop} {find : α → Option β}
    {keep : α → Bool} (hkeep : ∀ a, (find a).isSome = true ↔ keep a = true)
    (hfind : ∀ a b, find a = some b → relation a b) (xs : List α) :
    List.Forall₂ relation (xs.filter keep) (xs.filterMap find) := by
  induction xs with
  | nil => exact .nil
  | cons first rest ih =>
    cases hfirst : find first with
    | none =>
      have hnot : ¬keep first = true := by
        rw [← hkeep, hfirst]
        exact Bool.false_ne_true
      rw [List.filter_cons_of_neg hnot, List.filterMap_cons_none hfirst]
      exact ih
    | some found =>
      have hkept : keep first = true := by
        rw [← hkeep, hfirst]
        rfl
      rw [List.filter_cons_of_pos hkept, List.filterMap_cons_some hfirst]
      exact .cons (hfind first found hfirst) ih

namespace FlowGraph

variable {graph : FlowGraph} {table : List Effects} {symbol : ScriptSymbol}

/-- The report on a graph has an error about a pointer exactly when there is a path for it. -/
theorem exists_isErrorAbout_iff {pointer : Pointer} :
    (∃ diagnostic ∈ (graph.corruptedAtExit table).flatMap fun path => path.diagnostics graph symbol,
        diagnostic.IsErrorAbout pointer) ↔
      (graph.corruptionPath? table (.single pointer)).isSome = true := by
  constructor
  · rintro ⟨diagnostic, hmem, habout⟩
    obtain ⟨path, hpath, hdiagnostic⟩ := List.mem_flatMap.mp hmem
    obtain ⟨member, -, hfound⟩ := List.mem_filterMap.mp hpath
    have hpointer := CorruptionPath.exists_isErrorAbout_iff.mp ⟨diagnostic, hdiagnostic, habout⟩
    rw [pointer_of_corruptionPath? hfound] at hpointer
    rw [← hpointer, hfound]
    rfl
  · intro h
    obtain ⟨path, hpath⟩ := Option.isSome_iff_exists.mp h
    have hmember : PointerSet.single pointer ∈ (corruptedSomewhere table).members :=
      PointerSet.mem_members_iff.mpr (.inl ⟨pointer, rfl, contains_corruptedSomewhere h⟩)
    obtain ⟨diagnostic, hdiagnostic, habout⟩ := CorruptionPath.exists_isErrorAbout_iff.mpr
      (pointer_of_corruptionPath? hpath)
    exact ⟨diagnostic, List.mem_flatMap.mpr
      ⟨path, List.mem_filterMap.mpr ⟨_, hmember, hpath⟩, hdiagnostic⟩, habout⟩

/-- The diagnostics of paths that are about pointers are an error and its context for each. -/
theorem exists_findings {pointers : List Pointer} {paths : List CorruptionPath}
    (h : List.Forall₂ (fun pointer path => path.pointer = .single pointer) pointers paths)
    (graph : FlowGraph) (symbol : ScriptSymbol) :
    ∃ findings : List (Diagnostic × Diagnostic),
      (paths.flatMap fun path => path.diagnostics graph symbol) =
        findings.flatMap (fun finding => [finding.1, finding.2]) ∧
      List.Forall₂ (fun pointer finding =>
        finding.1.IsErrorAbout pointer ∧ finding.2.IsInfoAbout pointer) pointers findings := by
  induction h with
  | nil => exact ⟨[], rfl, .nil⟩
  | cons hpath _ ih =>
    obtain ⟨findings, hrest, habout⟩ := ih
    obtain ⟨error, info, hdiagnostics, herror, hinfo⟩ :=
      CorruptionPath.exists_diagnostics_eq hpath graph symbol
    refine ⟨(error, info) :: findings, ?_, .cons ⟨herror, hinfo⟩ habout⟩
    rw [List.flatMap_cons, List.flatMap_cons, hdiagnostics, hrest]

end FlowGraph

namespace Checker

variable {base checker : Checker} {meaning : base.Meaning}

/-- A node that does not call a script has the same effects whatever counts for that script; one
that calls it has what counts for it. -/
private theorem effectsBy_self (contracts : Contracts) (id : ScriptId)
    (effects : ScriptId → Effects) (node : FlowNode) :
    let table := node.effectsBy contracts fun symbol =>
      if symbol.id = id then .none else effects symbol.id
    let filled := node.effectsBy contracts fun symbol => effects symbol.id
    filled = table ∨ (table = .none ∧ filled = effects id) := by
  unfold FlowNode.effectsBy
  cases node.callee? with
  | none => exact .inl rfl
  | some symbol =>
    dsimp only
    by_cases hself : symbol.id = id
    · rw [if_pos hself, hself]
      exact .inr ⟨rfl, rfl⟩
    · rw [if_neg hself]
      exact .inl rfl

/-- The effects of nodes by meanings come from the effects that a summary is found from by putting
the summary in the places of calls to the script itself. -/
private theorem exists_fills (meaning : base.Meaning) {id : ScriptId} {graph : FlowGraph}
    (hflow : base.flow? id = some (.ok graph)) :
    ∃ table, meaning.effects id = graph.summary table ∧
      Fills (graph.summary table) table (graph.nodes.map fun node =>
        node.effectsBy base.contracts fun symbol => meaning.effects symbol.id) := by
  have hsummary : meaning.effects id = graph.summaryBy base.contracts fun symbol =>
      if symbol.id = id then .none else meaning.effects symbol.id := by
    rw [meaning.effects_eq id, hflow]
  unfold FlowGraph.summaryBy at hsummary
  refine ⟨_, hsummary, fun position => ?_⟩
  rw [← hsummary]
  simp only [List.getD_eq_getElem?_getD, List.getElem?_map]
  cases graph.nodes[position]? with
  | none =>
    left
    rw [Option.map_none, Option.map_none]
  | some node =>
    rw [Option.map_some, Option.map_some, Option.getD_some, Option.getD_some]
    exact effectsBy_self base.contracts id meaning.effects node

/-- A settled checker summarises a script from one table, and reports on it and searches it by a
table that fills this one with the summary. -/
theorem Meaning.SettledIn.exists_tables (h : meaning.SettledIn checker) {symbol : ScriptSymbol}
    {graph : FlowGraph} (hflow : base.flow? symbol.id = some (.ok graph)) :
    ∃ table filled, Fills (graph.summary table) table filled ∧
      (Query.effects symbol checker).1 = graph.summary table ∧
      (Query.check symbol checker).1.items =
        (graph.corruptedAtExit filled).flatMap (fun path => path.diagnostics graph symbol) ∧
      ∀ pointers, (Query.corruptionPath symbol pointers checker).1 =
        .ok (graph.corruptionPath? filled pointers) := by
  obtain ⟨table, hsummary, hfills⟩ := exists_fills meaning hflow
  refine ⟨table, _, hfills, (h.effects_fst symbol).trans hsummary, ?_, fun pointers => ?_⟩
  · rw [Query.check_eq, h.overNodes_fst, hflow]
    exact Diagnostics.items_ofList _
  · rw [Query.corruptionPath_eq, h.overNodes_fst, hflow]

/-- Where no cycle of calls leads through two or more scripts, a script is reported to exit with a
pointer corrupted exactly when a path is found on which it does, and exactly when its summary
corrupts the pointer. If the summary corrupts named pointers only, the report is one error followed
by its context for each of them, in bit order. -/
theorem verdicts_agree (contracts : Contracts) {scripts : List CompiledScript}
    (hcalls : ((new contracts).addAll scripts).NoMutualCalls) (questions : List Question)
    {symbol : ScriptSymbol} (hgraph : ((new contracts).addAll scripts).HasGraph symbol.id) :
    let checker := ((new contracts).addAll scripts).after questions
    let corrupted := (Query.effects symbol checker).1.corrupted
    let report := (Query.check symbol checker).1.items
    (∀ pointer : Pointer,
      ((∃ diagnostic ∈ report, diagnostic.IsErrorAbout pointer) ↔
        ∃ path, (Query.corruptionPath symbol (.single pointer) checker).1 = .ok (some path)) ∧
      ((∃ path, (Query.corruptionPath symbol (.single pointer) checker).1 = .ok (some path)) ↔
        corrupted.contains (.single pointer) = true)) ∧
    (corrupted.unnamed.isEmpty = true → ∃ findings : List (Diagnostic × Diagnostic),
      report = findings.flatMap (fun finding => [finding.1, finding.2]) ∧
      List.Forall₂ (fun pointer finding =>
          finding.1.IsErrorAbout pointer ∧ finding.2.IsInfoAbout pointer)
        (Pointer.all.filter fun pointer => corrupted.contains (.single pointer)) findings) := by
  intro checker corrupted report
  obtain ⟨meaning⟩ := nonempty_meaning hcalls
  obtain ⟨graph, hflow⟩ := hgraph
  have hsettled : meaning.SettledIn checker :=
    (settledIn_addAll_new meaning).steps ((idle_addAll_new contracts scripts).steps_after questions)
  obtain ⟨table, filled, hfills, heffects, hreport, hsearch⟩ := hsettled.exists_tables hflow
  have hcorrupted : corrupted = (graph.summary table).corrupted :=
    congrArg Effects.corrupted heffects
  have hfound (pointer : Pointer) :
      (∃ path, (Query.corruptionPath symbol (.single pointer) checker).1 = .ok (some path)) ↔
        (graph.corruptionPath? filled (.single pointer)).isSome = true := by
    rw [hsearch, Option.isSome_iff_exists]
    simp only [Except.ok.injEq]
  rw [hcorrupted, show report = _ from hreport]
  refine ⟨fun pointer => ⟨?_, ?_⟩, fun hnamed => ?_⟩
  · rw [hfound, FlowGraph.exists_isErrorAbout_iff]
  · rw [hfound, hfills.isSome_iff_contains]
  · rw [hfills.corruptedAtExit_eq hnamed]
    refine FlowGraph.exists_findings ?_ graph symbol
    exact forall₂_filterMap (fun pointer => hfills.isSome_iff_contains)
      (fun pointer path hpath => FlowGraph.pointer_of_corruptionPath? hpath) Pointer.all

/-- A script that calls itself and then corrupts a pointer. -/
private def relapseScript : CompiledScript where
  symbol := ⟨.proc, "relapse", [], []⟩
  blocks := [⟨⟨"entry"⟩, [.onSymbol .gosub (.script ⟨.proc, "relapse", [], []⟩),
    .onSymbol .command (.command ⟨"lose", [], []⟩), ⟨.leave, .none, none⟩]⟩]

/-- The contract of the command that corrupts a pointer. -/
private def loseContracts : Contracts := ⟨[("lose", { corrupted := .single .activeNpc })]⟩

theorem verdicts_agree_relapse :
    let checker := ((new loseContracts).addAll [relapseScript]).after [.checkAll]
    ((new loseContracts).addAll [relapseScript]).NoMutualCalls ∧
      ((new loseContracts).addAll [relapseScript]).HasGraph relapseScript.symbol.id ∧
      (Query.effects relapseScript.symbol checker).1.corrupted = .single .activeNpc ∧
      (∃ diagnostic ∈ (Query.check relapseScript.symbol checker).1.items,
        diagnostic.IsErrorAbout .activeNpc) ∧
      ∃ error info : Diagnostic, (Query.check relapseScript.symbol checker).1.items = [error, info] ∧
        error.IsErrorAbout .activeNpc ∧ info.IsInfoAbout .activeNpc := by
  have hcalls : ((new loseContracts).addAll [relapseScript]).NoMutualCalls := by
    refine noMutualCalls_of_rank (fun _ => 0) fun caller callee hcalls => ?_
    obtain ⟨script, hscript, rfl, symbol, hsymbol, rfl⟩ := exists_of_calls_addAll_new hcalls
    cases List.mem_singleton.mp hscript
    have hcallees : relapseScript.instructions.filterMap Instruction.callee? =
        [relapseScript.symbol] := rfl
    rw [hcallees] at hsymbol
    cases List.mem_singleton.mp hsymbol
    exact .inl rfl
  have hgraph : ((new loseContracts).addAll [relapseScript]).HasGraph relapseScript.symbol.id :=
    hasGraph_of_isOk relapseScript (by decide +kernel) (by decide +kernel)
  have hcorrupted : (Query.effects relapseScript.symbol
      (((new loseContracts).addAll [relapseScript]).after [.checkAll])).1.corrupted =
        .single .activeNpc := by decide +kernel
  obtain ⟨hverdicts, hfindings⟩ := verdicts_agree loseContracts hcalls [.checkAll] hgraph
  rw [hcorrupted] at hfindings
  obtain ⟨findings, hreport, habout⟩ := hfindings (by decide)
  refine ⟨hcalls, hgraph, hcorrupted, ?_, ?_⟩
  · rw [(hverdicts .activeNpc).1, (hverdicts .activeNpc).2, hcorrupted]
    decide
  · have hpointers : (Pointer.all.filter fun pointer =>
        (PointerSet.single .activeNpc).contains (.single pointer)) = [.activeNpc] := by decide
    rw [hpointers] at habout
    cases habout with
    | cons hfirst hrest =>
      cases hrest
      exact ⟨_, _, hreport, hfirst⟩

end Checker

end ScriptBackend
