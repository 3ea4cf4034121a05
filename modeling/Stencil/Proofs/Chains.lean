import Stencil.Proofs.Loops
import Stencil.Proofs.Lossless
import Stencil.Proofs.Scoping

namespace Stencil

namespace Node

theorem renderAll_spliced (scope : Scope) (node : Node) :
    renderAll scope node.spliced = render scope node := by
  cases node with
  | sequence nodes => rw [spliced, render]
  | _ => simp [spliced, renderAll]

mutual

/-- A sequence in a sequence writes what its nodes write there. -/
theorem render_flattened (scope : Scope) (node : Node) :
    render scope node.flattened = render scope node := by
  cases node with
  | text content => rfl
  | lookup path => rfl
  | conditional condition thenArm elseArm =>
    have hthen := render_flattened scope thenArm
    have helse := render_flattened scope elseArm
    rw [flattened, render, render, hthen, helse]
  | iteration source body separator =>
    have hbody : (fun x => render (scope.element source x) body.flattened) =
        fun x => render (scope.element source x) body := by
      funext x
      exact render_flattened (scope.element source x) body
    have hbetween :
        (fun x => renderBetween (scope.element source x) (flattenedSeparator separator)) =
          fun x => renderBetween (scope.element source x) separator := by
      funext x
      exact renderBetween_flattened (scope.element source x) separator
    rw [flattened, render_iteration, render_iteration, hbody, hbetween]
  | sequence nodes =>
    rw [flattened, render, render]
    exact renderAll_flattenedAll scope nodes

theorem renderBetween_flattened (scope : Scope) (separator : Option Node) :
    renderBetween scope (flattenedSeparator separator) = renderBetween scope separator := by
  cases separator with
  | none => rfl
  | some between => exact render_flattened scope between

theorem renderAll_flattenedAll (scope : Scope) (nodes : List Node) :
    renderAll scope (flattenedAll nodes) = renderAll scope nodes := by
  cases nodes with
  | nil => rfl
  | cons node rest =>
    have hnode := render_flattened scope node
    have hrest := renderAll_flattenedAll scope rest
    rw [flattenedAll, renderAll_append, renderAll_spliced, hnode, hrest, renderAll]

end

/-- No directive ends the root, so what is looked up in an arm is looked up there too. -/
theorem LookupIn.root {arm : Arm} {path : String} (h : LookupIn arm path) : LookupIn .root path := by
  obtain ⟨directive, hclassify, hif, hfor, -⟩ := h
  exact ⟨directive, hclassify, hif, hfor, by simp [Arm.stops]⟩

mutual

theorem Scoped.root (node : Node) {arm : Arm} (h : node.Scoped arm) : node.Scoped .root := by
  cases node with
  | lookup path => exact LookupIn.root h
  | sequence nodes => exact AllScoped.root nodes h
  | _ => exact h

theorem AllScoped.root (nodes : List Node) {arm : Arm} (h : AllScoped arm nodes) :
    AllScoped .root nodes := by
  cases nodes with
  | nil => trivial
  | cons node rest => exact ⟨Scoped.root node h.1, AllScoped.root rest h.2⟩

end

/-- Nodes that are well scoped where they stand together in an arm. -/
structure ArmScoped (arm : Arm) (nodes : List Node) : Prop where
  shaped : AllShaped nodes
  lookups : AllScoped arm nodes

/-- On its own, what stands in an arm is read as a template that writes the same. -/
theorem ArmScoped.parse_alone {arm : Arm} {nodes : List Node} (h : ArmScoped arm nodes) :
    ∃ alone, parse (unplaced (tokensAll nodes)) = .ok alone ∧
      ∀ scope, render scope alone = renderAll scope nodes := by
  have hscoped : (sequence nodes).WellScoped := ⟨trivial, h.shaped, AllScoped.root nodes h.lookups⟩
  refine ⟨_, parse_unplaced hscoped, ?_⟩
  intro scope
  rw [render_flattened, render]

theorem elseScoped_chain {arms : List (String × List Node)} {last : Node}
    (h : ∀ arm ∈ arms, AllScoped .thenArm arm.2) (hlast : last.Scoped .elseArm) :
    (chain arms last).Scoped .elseArm := by
  induction arms with
  | nil => exact hlast
  | cons arm later ih =>
    have harm : AllScoped .thenArm arm.2 := h arm List.mem_cons_self
    have hlater := ih fun a ha => h a (List.mem_cons_of_mem _ ha)
    exact ⟨harm, hlater⟩

/-- What a chain ends in. Without a last arm there is nothing to write. -/
def lastNode : Option (List Node) → Node
  | some nodes => sequence nodes
  | none => text ""

def lastTokens : Option (List Node) → List Token
  | some nodes => otherwiseTokens (tokensAll nodes)
  | none => [.directive "endif"]

/-- Arms with their conditions, the last arm after them, and one `endif` for all. -/
def branchTokens (first : String × List Node) (later : List (String × List Node))
    (last : Option (List Node)) : List Token :=
  .directive ("if(" ++ first.1 ++ ")") :: (tokensAll first.2 ++ laterTokens later ++ lastTokens last)

/-- The first arm whose condition prints as something, or else the last one. -/
def chosen (scope : Scope) (arms : List (String × List Node)) (last : Option (List Node)) :
    List Node :=
  match arms.find? fun arm => scope.text arm.1 ≠ "" with
  | some arm => arm.2
  | none => last.getD []

theorem tokens_branch (first : String × List Node) (later : List (String × List Node))
    (last : Option (List Node)) :
    tokens (chain (first :: later) (lastNode last)) = branchTokens first later last := by
  have hlast : elseTokens (lastNode last) = lastTokens last := by
    cases last with
    | none => exact if_pos rfl
    | some nodes => rfl
  have hchain := elseTokens_chain later (lastNode last)
  rw [hlast] at hchain
  show _ :: (tokensAll first.2 ++ elseTokens (chain later (lastNode last))) = _
  rw [hchain, branchTokens, List.append_assoc]

theorem render_chain (scope : Scope) (arms : List (String × List Node)) (last : Option (List Node)) :
    render scope (chain arms (lastNode last)) = renderAll scope (chosen scope arms last) := by
  induction arms with
  | nil => cases last <;> simp [chain, chosen, lastNode, render, renderAll]
  | cons arm later ih =>
    have hholds := scope.truthy_iff_text_ne_empty arm.1
    show render scope (conditional arm.1 (sequence arm.2) (chain later (lastNode last))) = _
    rw [render, ih]
    by_cases h : scope.text arm.1 ≠ ""
    · rw [if_pos (hholds.2 h), render, chosen, List.find?_cons_of_pos (by simpa using h)]
    · rw [if_neg (mt hholds.1 h), chosen, chosen, List.find?_cons_of_neg (by simpa using h)]

theorem wellScoped_branch {first : String × List Node} {later : List (String × List Node)}
    {last : Option (List Node)} (harms : ∀ arm ∈ first :: later, ArmScoped .thenArm arm.2)
    (hlast : ∀ nodes ∈ last, ArmScoped .elseArm nodes) :
    (sequence [chain (first :: later) (lastNode last)]).WellScoped := by
  have hend : (lastNode last).IsElseArm ∧ (lastNode last).WellShaped := by
    cases last with
    | none => exact ⟨rfl, trivial⟩
    | some nodes => exact ⟨trivial, (hlast nodes rfl).shaped⟩
  have hlookups : (lastNode last).Scoped .elseArm := by
    cases last with
    | none => trivial
    | some nodes => exact (hlast nodes rfl).lookups
  have hshaped := elseShaped_chain (fun arm harm => (harms arm harm).shaped) hend
  have hscoped := elseScoped_chain (fun arm harm => (harms arm harm).lookups) hlookups
  have htext : chain (first :: later) (lastNode last) ≠ text "" := by simp [chain]
  exact ⟨trivial, ⟨⟨htext, hshaped.2⟩, trivial⟩, ⟨Scoped.root _ hscoped, trivial⟩⟩

theorem armScoped_chosen {arms : List (String × List Node)} {last : Option (List Node)}
    (harms : ∀ arm ∈ arms, ArmScoped .thenArm arm.2)
    (hlast : ∀ nodes ∈ last, ArmScoped .elseArm nodes) (scope : Scope) :
    ∃ arm, ArmScoped arm (chosen scope arms last) := by
  unfold chosen
  split
  · rename_i arm hfound
    exact ⟨.thenArm, harms arm (List.mem_of_find?_eq_some hfound)⟩
  · cases last with
    | none => exact ⟨.elseArm, trivial, trivial⟩
    | some nodes => exact ⟨.elseArm, hlast nodes rfl⟩

/-- A chain of any length is read as one conditional. It writes what the first arm whose condition
    holds would write on its own, and what the last arm would write if none holds. -/
theorem parse_chain {first : String × List Node} {later : List (String × List Node)}
    {last : Option (List Node)} (harms : ∀ arm ∈ first :: later, ArmScoped .thenArm arm.2)
    (hlast : ∀ nodes ∈ last, ArmScoped .elseArm nodes) {ts : List (Spanned Token)}
    (hts : ts.map (·.value) = branchTokens first later last) :
    ∃ thenArm elseArm, parse ts = .ok (sequence [conditional first.1 thenArm elseArm]) ∧
      ∀ scope, ∃ alone,
        parse (unplaced (tokensAll (chosen scope (first :: later) last))) = .ok alone ∧
          render scope (sequence [conditional first.1 thenArm elseArm]) = render scope alone ∧
          render scope alone = renderAll scope (chosen scope (first :: later) last) := by
  let whole := chain (first :: later) (lastNode last)
  have hscoped : (sequence [whole]).WellScoped := wellScoped_branch harms hlast
  have htokens : (sequence [whole]).tokens = branchTokens first later last := by
    rw [tokens, tokensAll, tokensAll, List.append_nil, tokens_branch]
  have hvalues : ts.map (·.value) = (unplaced (sequence [whole]).tokens).map (·.value) := by
    rw [hts, htokens, unplaced, values_of_tokens]
  have hparse : parse ts = .ok (sequence [whole]).flattened :=
    parse_eq_ok_of_values hvalues (parse_unplaced hscoped)
  refine ⟨(sequence first.2).flattened, (chain later (lastNode last)).flattened, hparse, ?_⟩
  intro scope
  -- the arm on its own is read in the root, where no keyword ends anything
  obtain ⟨arm, harm⟩ := armScoped_chosen harms hlast scope
  obtain ⟨alone, hparsed, hwritten⟩ := harm.parse_alone
  have hwhole : render scope (sequence [whole]).flattened =
      renderAll scope (chosen scope (first :: later) last) := by
    rw [render_flattened, render, renderAll, renderAll, String.append_empty, render_chain]
  exact ⟨alone, hparsed, hwhole.trans (hwritten scope).symm, hwritten scope⟩

/-- An arm that holds a chain and a loop, and keywords that end nothing where they stand. -/
theorem parse_chain_nested :
    let inner := [
      conditional "x" (sequence [text "X"]) (conditional "b" (sequence [lookup "b"]) (text "")),
      iteration "xs" (sequence [lookup "endif"]) (some (sequence [text ","]))]
    let first := ("a", [text "A"])
    let later := [("b)(", inner), ("", [lookup "endfor"])]
    let last := [lookup "else", sequence [text "E"]]
    let ts := unplaced (branchTokens first later (some last))
    let scope := Scope.root [("a", .bool false), ("b", .string "B"), ("b)(", .integer 0),
      ("endif", .string "i"), ("xs", .list [.null, .null])]
    (∀ arm ∈ first :: later, ArmScoped .thenArm arm.2) ∧
      (∀ nodes ∈ some last, ArmScoped .elseArm nodes) ∧
      ts.map (·.value) = branchTokens first later (some last) ∧
      ∃ tree, parse ts = .ok tree ∧ tree.render scope = "Bi,i" ∧
        tree.render (.root [("else", .string "e")]) = "eE" := by
  intro inner first later last ts scope
  have hb : LookupIn .thenArm "b" := ⟨.lookup "b", rfl, by simp, by simp, rfl⟩
  have hendIf : LookupIn .body "endif" := ⟨.endIf, rfl, by simp, by simp, rfl⟩
  have hendFor : LookupIn .thenArm "endfor" := ⟨.endFor, rfl, by simp, by simp, rfl⟩
  have helse : LookupIn .elseArm "else" := ⟨.otherwise, rfl, by simp, by simp, rfl⟩
  have harms : ∀ arm ∈ first :: later, ArmScoped .thenArm arm.2 := by
    simp only [first, later, inner, List.forall_mem_cons]
    refine ⟨⟨?_, ?_⟩, ⟨?_, ?_⟩, ⟨?_, ?_⟩, by simp⟩
    all_goals
      simp [AllShaped, WellShaped, SeparatorShaped, IsSequence, IsElseArm, AllScoped, Scoped,
        SeparatorScoped, hb, hendIf, hendFor]
  have hlast : ∀ nodes ∈ some last, ArmScoped .elseArm nodes := by
    rintro nodes ⟨⟩
    exact ⟨by simp [last, AllShaped, WellShaped], by simp [last, AllScoped, Scoped, helse]⟩
  have hts : ts.map (·.value) = branchTokens first later (some last) := values_of_tokens _ _
  obtain ⟨thenArm, elseArm, hparse, hwrites⟩ := parse_chain harms hlast hts
  obtain ⟨_, -, hmiddle, hmiddleText⟩ := hwrites scope
  obtain ⟨_, -, hend, hendText⟩ := hwrites (.root [("else", .string "e")])
  have hB : renderAll scope (chosen scope (first :: later) (some last)) = "Bi,i" := by decide
  have hE : renderAll (.root [("else", .string "e")])
      (chosen (.root [("else", .string "e")]) (first :: later) (some last)) = "eE" := by decide
  exact ⟨harms, hlast, hts, _, hparse, hmiddle.trans (hmiddleText.trans hB),
    hend.trans (hendText.trans hE)⟩

end Node
end Stencil
