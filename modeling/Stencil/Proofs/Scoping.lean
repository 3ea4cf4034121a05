import Stencil.Proofs.Directive
import Stencil.Proofs.Relocation
import Stencil.Proofs.Tokens

namespace Stencil

namespace Node

/-- A path that is looked up where an arm is open: no block starts with it, and it does not end the
    arm. -/
def LookupIn (arm : Arm) (path : String) : Prop :=
  ∃ directive, Directive.classify path = .ok directive ∧
    (∀ condition, directive ≠ .ifBlock condition) ∧ (∀ source, directive ≠ .forBlock source) ∧
    arm.stops directive = false

mutual

/-- Every path can be looked up in the arm that it stands in. -/
def Scoped (arm : Arm) : Node → Prop
  | text _ => True
  | lookup path => LookupIn arm path
  | conditional _ thenArm elseArm => Scoped .thenArm thenArm ∧ Scoped .elseArm elseArm
  | iteration _ body separator => Scoped .body body ∧ SeparatorScoped separator
  | sequence nodes => AllScoped arm nodes

def SeparatorScoped : Option Node → Prop
  | none => True
  | some between => Scoped .separator between

def AllScoped (arm : Arm) : List Node → Prop
  | [] => True
  | node :: rest => Scoped arm node ∧ AllScoped arm rest

end

structure WellScoped (tree : Node) : Prop where
  isSequence : tree.IsSequence
  shaped : tree.WellShaped
  lookups : tree.Scoped .root

/-- The nodes of a sequence; any other node alone. -/
def spliced : Node → List Node
  | sequence nodes => nodes
  | node => [node]

mutual

/-- Sequences that stand in a sequence give it their nodes. -/
def flattened : Node → Node
  | text content => text content
  | lookup path => lookup path
  | conditional condition thenArm elseArm =>
    conditional condition (flattened thenArm) (flattened elseArm)
  | iteration source body separator =>
    iteration source (flattened body) (flattenedSeparator separator)
  | sequence nodes => sequence (flattenedAll nodes)

def flattenedSeparator : Option Node → Option Node
  | none => none
  | some between => some (flattened between)

def flattenedAll : List Node → List Node
  | [] => []
  | node :: rest => (flattened node).spliced ++ flattenedAll rest

end

mutual

/-- No sequence stands in a sequence. -/
def Flat : Node → Prop
  | text _ => True
  | lookup _ => True
  | conditional _ thenArm elseArm => Flat thenArm ∧ Flat elseArm
  | iteration _ body separator => Flat body ∧ SeparatorFlat separator
  | sequence nodes => AllFlat nodes

def SeparatorFlat : Option Node → Prop
  | none => True
  | some between => Flat between

def AllFlat : List Node → Prop
  | [] => True
  | node :: rest => (¬ node.IsSequence ∧ Flat node) ∧ AllFlat rest

end

/-- Tokens whose spans do not matter. -/
def unplaced (tokens : List Token) : List (Spanned Token) := tokens.map fun token => ⟨token, ⟨0, 0⟩⟩

end Node

open Node

namespace Reading

def inside (r : Reading) (block : Block) (opener : Spanned String) (nodes : List Node) : Reading :=
  (r.enter block opener).append nodes

theorem step_content {d : Directive} (h : ∀ path, d ≠ .lookup path) (r : Reading) (span : Span) :
    r.step ⟨.directive d.content, span⟩ = .ok (r.read d ⟨d.content, span⟩) := by
  rw [step, Directive.classify_content h]

theorem step_stop {d : Directive} (h : ∀ path, d ≠ .lookup path) {r : Reading}
    (hs : r.arm.stops d = true) (span : Span) :
    r.step ⟨.directive d.content, span⟩ = .ok (r.stop d ⟨d.content, span⟩) := by
  have hread : r.read d ⟨d.content, span⟩ = r.stop d ⟨d.content, span⟩ := if_pos hs
  rw [step_content h, hread]

theorem step_if (r : Reading) (condition : String) (span : Span) :
    r.step ⟨.directive ("if(" ++ condition ++ ")"), span⟩ =
      .ok (r.enter (.thenArm [] condition) ⟨"if(" ++ condition ++ ")", span⟩) := by
  have hs : ¬ r.arm.stops (.ifBlock condition) = true := by
    cases r.arm <;> simp [Arm.stops]
  have hread (marker : Spanned String) :
      r.read (.ifBlock condition) marker = r.enter (.thenArm [] condition) marker := if_neg hs
  rw [← hread]
  exact @step_content (.ifBlock condition) (by simp) r span

theorem step_for (r : Reading) (source : String) (span : Span) :
    r.step ⟨.directive ("for(" ++ source ++ ")"), span⟩ =
      .ok (r.enter (.body source) ⟨"for(" ++ source ++ ")", span⟩) := by
  have hs : ¬ r.arm.stops (.forBlock source) = true := by
    cases r.arm <;> simp [Arm.stops]
  have hread (marker : Spanned String) :
      r.read (.forBlock source) marker = r.enter (.body source) marker := if_neg hs
  rw [← hread]
  exact @step_content (.forBlock source) (by simp) r span

theorem step_lookup {path : String} {r : Reading} (h : LookupIn r.arm path) (span : Span) :
    r.step ⟨.directive path, span⟩ = .ok (r.append [.lookup path]) := by
  obtain ⟨directive, hd, hif, hfor, hs⟩ := h
  rw [step, hd]
  exact congrArg Except.ok (read_lookup ⟨path, span⟩ (by simp [hs]) hif hfor)

section Stops

variable (r : Reading) (opener : Spanned String) (nodes : List Node) (span : Span)

theorem step_elseIf (earlier : List (String × List Node)) (condition next : String) :
    (r.inside (.thenArm earlier condition) opener nodes).step
        ⟨.directive ("elseif(" ++ next ++ ")"), span⟩ =
      .ok (r.enter (.thenArm (earlier ++ [(condition, nodes)]) next)
        ⟨"elseif(" ++ next ++ ")", span⟩) :=
  @step_stop (.elseIf next) (by simp) (r.inside (.thenArm earlier condition) opener nodes) rfl span

theorem step_else (earlier : List (String × List Node)) (condition : String) :
    (r.inside (.thenArm earlier condition) opener nodes).step ⟨.directive "else", span⟩ =
      .ok (r.enter (.elseArm earlier condition nodes) opener) :=
  @step_stop .otherwise (by simp) (r.inside (.thenArm earlier condition) opener nodes) rfl span

theorem step_endIf_thenArm (earlier : List (String × List Node)) (condition : String) :
    (r.inside (.thenArm earlier condition) opener nodes).step ⟨.directive "endif", span⟩ =
      .ok (r.append [chain earlier (conditional condition (sequence nodes) (text ""))]) :=
  @step_stop .endIf (by simp) (r.inside (.thenArm earlier condition) opener nodes) rfl span

theorem step_endIf_elseArm (earlier : List (String × List Node)) (condition : String)
    (thenArm : List Node) :
    (r.inside (.elseArm earlier condition thenArm) opener nodes).step ⟨.directive "endif", span⟩ =
      .ok (r.append [chain earlier (conditional condition (sequence thenArm) (sequence nodes))]) :=
  @step_stop .endIf (by simp) (r.inside (.elseArm earlier condition thenArm) opener nodes) rfl span

theorem step_sep (source : String) :
    (r.inside (.body source) opener nodes).step ⟨.directive "sep", span⟩ =
      .ok (r.enter (.separator source nodes) opener) :=
  @step_stop .sep (by simp) (r.inside (.body source) opener nodes) rfl span

theorem step_endFor_body (source : String) :
    (r.inside (.body source) opener nodes).step ⟨.directive "endfor", span⟩ =
      .ok (r.append [iteration source (sequence nodes) none]) :=
  @step_stop .endFor (by simp) (r.inside (.body source) opener nodes) rfl span

theorem step_endFor_separator (source : String) (body : List Node) :
    (r.inside (.separator source body) opener nodes).step ⟨.directive "endfor", span⟩ =
      .ok (r.append [iteration source (sequence body) (some (sequence nodes))]) :=
  @step_stop .endFor (by simp) (r.inside (.separator source body) opener nodes) rfl span

end Stops

theorem steps_cons_of_step {r next : Reading} {token : Token} (tokens : List Token)
    (h : r.step ⟨token, ⟨0, 0⟩⟩ = .ok next) :
    r.steps (unplaced (token :: tokens)) = next.steps (unplaced tokens) := by
  rw [unplaced, List.map_cons, steps_cons, h]
  rfl

theorem steps_append_of_steps {r next : Reading} {tokens : List Token} (more : List Token)
    (h : r.steps (unplaced tokens) = .ok next) :
    r.steps (unplaced (tokens ++ more)) = next.steps (unplaced more) := by
  rw [unplaced, List.map_append, steps_append, ← unplaced, h]
  rfl

mutual

theorem steps_tokens (node : Node) (hshaped : node.WellShaped) (hne : node ≠ text "") {arm : Arm}
    (h : node.Scoped arm) (r : Reading) (hr : r.arm = arm) :
    r.steps (unplaced node.tokens) = .ok (r.append node.flattened.spliced) := by
  subst hr
  cases node with
  | text content =>
    have hc : content.isEmpty = false := by
      simpa [String.isEmpty_iff] using hne
    have hstep : r.step ⟨.plain content, ⟨0, 0⟩⟩ = .ok (r.append [text content]) := by
      simp [step, hc]
    rw [Node.tokens, steps_cons_of_step [] hstep]
    rfl
  | lookup path =>
    rw [Node.tokens, steps_cons_of_step [] (step_lookup h _)]
    rfl
  | conditional condition thenArm elseArm =>
    obtain ⟨⟨hthen, hthenShaped⟩, helse⟩ := hshaped
    cases thenArm with
    | sequence nodes =>
      have hnodes := steps_tokensAll nodes hthenShaped h.1
        (r.enter (.thenArm [] condition) ⟨"if(" ++ condition ++ ")", ⟨0, 0⟩⟩) rfl
      rw [Node.tokens, Node.tokens, steps_cons_of_step _ (step_if r condition _),
        steps_append_of_steps _ hnodes]
      exact steps_elseTokens elseArm helse h.2 r [] condition _ _
    | _ => exact hthen.elim
  | iteration source body separator =>
    obtain ⟨⟨hbody, hbodyShaped⟩, hseparator⟩ := hshaped
    cases body with
    | sequence nodes =>
      have hnodes := steps_tokensAll nodes hbodyShaped h.1
        (r.enter (.body source) ⟨"for(" ++ source ++ ")", ⟨0, 0⟩⟩) rfl
      rw [Node.tokens, Node.tokens, loopTokens, steps_cons_of_step _ (step_for r source _),
        List.append_assoc, steps_append_of_steps _ hnodes]
      exact steps_separatorTokens separator hseparator h.2 r source _ _
    | _ => exact hbody.elim
  | sequence nodes => exact steps_tokensAll nodes hshaped h r rfl

theorem steps_elseTokens (elseArm : Node) (hshaped : elseArm.IsElseArm ∧ elseArm.WellShaped)
    (h : elseArm.Scoped .elseArm) (r : Reading) (earlier : List (String × List Node))
    (condition : String) (nodes : List Node) (opener : Spanned String) :
    (r.inside (.thenArm earlier condition) opener nodes).steps (unplaced (elseTokens elseArm)) =
      .ok (r.append [chain earlier (conditional condition (sequence nodes) elseArm.flattened)]) := by
  cases elseArm with
  | text content =>
    obtain rfl : content = "" := hshaped.1
    rw [elseTokens, if_pos rfl, steps_cons_of_step [] (step_endIf_thenArm r opener nodes _ _ _)]
    rfl
  | conditional next thenArm elseArm =>
    obtain ⟨-, ⟨hthen, hthenShaped⟩, helse⟩ := hshaped
    cases thenArm with
    | sequence others =>
      have hothers := steps_tokensAll others hthenShaped h.1
        (r.enter (.thenArm (earlier ++ [(condition, nodes)]) next) ⟨"elseif(" ++ next ++ ")", ⟨0, 0⟩⟩)
        rfl
      rw [elseTokens, Node.tokens, steps_cons_of_step _ (step_elseIf r opener nodes _ _ _ _),
        steps_append_of_steps _ hothers, flattened, ← chain_concat]
      -- the then-arm joins what the chain has passed, so the chain is taken from its front
      exact steps_elseTokens elseArm helse h.2 r (earlier ++ [(condition, nodes)]) next _ _
    | _ => exact hthen.elim
  | sequence others =>
    have hothers := steps_tokensAll others hshaped.2 h
      (r.enter (.elseArm earlier condition nodes) opener) rfl
    rw [elseTokens, otherwiseTokens, steps_cons_of_step _ (step_else r opener nodes _ _ _),
      steps_append_of_steps _ hothers]
    exact steps_cons_of_step [] (step_endIf_elseArm r opener (flattenedAll others) _ _ _ _)
  | _ => exact hshaped.1.elim

theorem steps_separatorTokens (separator : Option Node) (hshaped : SeparatorShaped separator)
    (h : SeparatorScoped separator) (r : Reading) (source : String) (nodes : List Node)
    (opener : Spanned String) :
    (r.inside (.body source) opener nodes).steps
        (unplaced (separatorTokens separator ++ [.directive "endfor"])) =
      .ok (r.append [iteration source (sequence nodes) (flattenedSeparator separator)]) := by
  cases separator with
  | none => exact steps_cons_of_step [] (step_endFor_body r opener nodes _ _)
  | some between =>
    cases between with
    | sequence others =>
      have hothers := steps_tokensAll others hshaped.2 h
        (r.enter (.separator source nodes) opener) rfl
      rw [separatorTokens, Node.tokens, List.cons_append,
        steps_cons_of_step _ (step_sep r opener nodes _ _), steps_append_of_steps _ hothers]
      exact steps_cons_of_step [] (step_endFor_separator r opener (flattenedAll others) _ _ _)
    | _ => exact hshaped.1.elim

theorem steps_tokensAll (nodes : List Node) (hshaped : AllShaped nodes) {arm : Arm}
    (h : AllScoped arm nodes) (r : Reading) (hr : r.arm = arm) :
    r.steps (unplaced (tokensAll nodes)) = .ok (r.append (flattenedAll nodes)) := by
  cases nodes with
  | nil =>
    rw [tokensAll, flattenedAll, append, List.append_nil]
    rfl
  | cons node rest =>
    obtain ⟨⟨hne, hnode⟩, hrest⟩ := hshaped
    rw [tokensAll, steps_append_of_steps _ (steps_tokens node hnode hne h.1 r hr),
      steps_tokensAll rest hrest h.2 (r.append node.flattened.spliced) hr, append_append,
      flattenedAll]

end

end Reading

namespace Node

mutual

theorem flattened_of_flat (node : Node) (h : node.Flat) : node.flattened = node := by
  cases node with
  | text content => rfl
  | lookup path => rfl
  | conditional condition thenArm elseArm =>
    rw [flattened, flattened_of_flat thenArm h.1, flattened_of_flat elseArm h.2]
  | iteration source body separator =>
    rw [flattened, flattened_of_flat body h.1, flattenedSeparator_of_flat separator h.2]
  | sequence nodes => rw [flattened, flattenedAll_of_flat nodes h]

theorem flattenedSeparator_of_flat (separator : Option Node) (h : SeparatorFlat separator) :
    flattenedSeparator separator = separator := by
  cases separator with
  | none => rfl
  | some between => rw [flattenedSeparator, flattened_of_flat between h]

theorem flattenedAll_of_flat (nodes : List Node) (h : AllFlat nodes) : flattenedAll nodes = nodes := by
  cases nodes with
  | nil => rfl
  | cons node rest =>
    obtain ⟨⟨hnode, hflat⟩, hrest⟩ := h
    rw [flattenedAll, flattened_of_flat node hflat, flattenedAll_of_flat rest hrest]
    cases node with
    | sequence nodes => exact absurd trivial hnode
    | _ => rfl

end

theorem not_isSequence_of_mem_flattenedAll {node : Node} (nodes : List Node)
    (h : node ∈ flattenedAll nodes) : ¬ node.IsSequence := by
  cases nodes with
  | nil => simp [flattenedAll] at h
  | cons first rest =>
    rw [flattenedAll, List.mem_append] at h
    rcases h with h | h
    · cases first with
      | sequence inner => exact not_isSequence_of_mem_flattenedAll inner h
      | _ =>
        simp only [flattened, spliced, List.mem_singleton] at h
        subst h
        exact id
    · exact not_isSequence_of_mem_flattenedAll rest h

mutual

theorem flat_of_flattened (node : Node) (h : node.flattened = node) : node.Flat := by
  cases node with
  | text content => trivial
  | lookup path => trivial
  | conditional condition thenArm elseArm =>
    simp only [flattened, conditional.injEq, true_and] at h
    exact ⟨flat_of_flattened thenArm h.1, flat_of_flattened elseArm h.2⟩
  | iteration source body separator =>
    simp only [flattened, iteration.injEq, true_and] at h
    exact ⟨flat_of_flattened body h.1, separatorFlat_of_flattened separator h.2⟩
  | sequence nodes => exact allFlat_of_flattened nodes (sequence.inj h)

theorem separatorFlat_of_flattened (separator : Option Node)
    (h : flattenedSeparator separator = separator) : SeparatorFlat separator := by
  cases separator with
  | none => trivial
  | some between => exact flat_of_flattened between (Option.some.inj h)

theorem allFlat_of_flattened (nodes : List Node) (h : flattenedAll nodes = nodes) : AllFlat nodes := by
  cases nodes with
  | nil => trivial
  | cons node rest =>
    have hnode : ¬ node.IsSequence := by
      refine not_isSequence_of_mem_flattenedAll (node :: rest) ?_
      rw [h]
      exact List.mem_cons_self
    rw [flattenedAll] at h
    cases node with
    | sequence inner => exact absurd trivial hnode
    | _ =>
      have hparts := List.cons.inj h
      exact ⟨⟨hnode, flat_of_flattened _ hparts.1⟩, allFlat_of_flattened rest hparts.2⟩

end

theorem flattened_eq_iff (node : Node) : node.flattened = node ↔ node.Flat :=
  ⟨flat_of_flattened node, flattened_of_flat node⟩

theorem values_of_tokens (tokens : List Token) (span : Span) :
    (tokens.map fun token => (⟨token, span⟩ : Spanned Token)).map (·.value) = tokens := by
  rw [List.map_map]
  exact List.map_id tokens

theorem parse_unplaced {tree : Node} (h : tree.WellScoped) :
    parse (unplaced tree.tokens) = .ok tree.flattened := by
  obtain ⟨hsequence, hshaped, hlookups⟩ := h
  cases tree with
  | sequence nodes =>
    have hsteps := Reading.steps_tokensAll nodes hshaped hlookups Reading.start rfl
    rw [Reading.parse_eq_run, Reading.run_eq_steps, tokens, hsteps]
    rfl
  | _ => exact hsequence.elim

/-- The tokens of a well-scoped tree are read as the tree, except that sequences in a sequence come
    back as the nodes in them. -/
theorem parse_of_wellScoped {tree : Node} (h : tree.WellScoped) {ts : List (Spanned Token)}
    (hts : ts.map (·.value) = tree.tokens) :
    parse ts = .ok tree.flattened ∧ (parse ts = .ok tree ↔ tree.Flat) := by
  have hvalues : ts.map (·.value) = (unplaced tree.tokens).map (·.value) := by
    rw [hts, unplaced, values_of_tokens]
  have hparse : parse ts = .ok tree.flattened := parse_eq_ok_of_values hvalues (parse_unplaced h)
  refine ⟨hparse, ?_⟩
  rw [hparse, Except.ok.injEq, flattened_eq_iff]

/-- Keywords are looked up wherever they end nothing, and conditions may hold parentheses. -/
theorem parse_of_wellScoped_keywords :
    let tree := sequence [
      conditional "a)(b" (sequence [lookup "sep"])
        (conditional "" (sequence []) (sequence [lookup "else", lookup "elseif(x)"])),
      iteration "xs" (sequence [lookup "endif"]) (some (sequence [lookup "sep", text "\n"]))]
    let ts : List (Spanned Token) := tree.tokens.map fun token => ⟨token, ⟨7, 3⟩⟩
    tree.WellScoped ∧ ts.map (·.value) = tree.tokens ∧ tree.Flat ∧ parse ts = .ok tree := by
  intro tree ts
  have hsep : LookupIn .thenArm "sep" := ⟨.sep, rfl, by simp, by simp, rfl⟩
  have helse : LookupIn .elseArm "else" := ⟨.otherwise, rfl, by simp, by simp, rfl⟩
  have helseIf : LookupIn .elseArm "elseif(x)" := ⟨.elseIf "x", by rfl, by simp, by simp, rfl⟩
  have hendIf : LookupIn .body "endif" := ⟨.endIf, rfl, by simp, by simp, rfl⟩
  have hsep' : LookupIn .separator "sep" := ⟨.sep, rfl, by simp, by simp, rfl⟩
  have hscoped : tree.WellScoped := by
    refine ⟨trivial, ?_, ?_⟩
    · simp [tree, WellShaped, AllShaped, SeparatorShaped, IsSequence, IsElseArm]
    · simp [tree, Scoped, AllScoped, SeparatorScoped, hsep, helse, helseIf, hendIf, hsep']
  have hts : ts.map (·.value) = tree.tokens := values_of_tokens tree.tokens ⟨7, 3⟩
  have hflat : tree.Flat := by
    simp [tree, Flat, AllFlat, SeparatorFlat, IsSequence]
  exact ⟨hscoped, hts, hflat, (parse_of_wellScoped hscoped hts).2.2 hflat⟩

/-- A sequence in a sequence leaves no trace in the tokens. -/
theorem nested_sequence_not_read_back :
    let tree := sequence [sequence [text "a"]]
    let ts : List (Spanned Token) := [⟨.plain "a", ⟨0, 1⟩⟩]
    tree.WellScoped ∧ ts.map (·.value) = tree.tokens ∧ parse ts = .ok (sequence [text "a"]) ∧
      parse ts ≠ .ok tree := by
  intro tree ts
  have hparse : parse ts = .ok (sequence [text "a"]) := by
    rw [Reading.parse_eq_run]
    rfl
  refine ⟨⟨trivial, ?_, ?_⟩, rfl, hparse, ?_⟩
  · simp [tree, WellShaped, AllShaped]
  · simp [tree, Scoped, AllScoped]
  · rw [hparse]
    simp [tree]

end Node
end Stencil
