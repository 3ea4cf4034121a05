import Stencil.Proofs.Directive
import Stencil.Proofs.Reading
import Stencil.Proofs.Tokens

namespace Stencil

namespace Node

def laterTokens (arms : List (String × List Node)) : List Token :=
  arms.flatMap fun (condition, nodes) => .directive ("elseif(" ++ condition ++ ")") :: tokensAll nodes

/-- A chain up to the condition of its open arm. -/
def chainTokens (earlier : List (String × List Node)) (condition : String) : List Token :=
  match earlier with
  | [] => [.directive ("if(" ++ condition ++ ")")]
  | (first, nodes) :: later =>
    .directive ("if(" ++ first ++ ")") ::
      (tokensAll nodes ++ laterTokens later ++ [.directive ("elseif(" ++ condition ++ ")")])

/-- A chain in an else-arm is written arm by arm, and then what its last arm leaves to write. -/
theorem elseTokens_chain (later : List (String × List Node)) (last : Node) :
    elseTokens (chain later last) = laterTokens later ++ elseTokens last := by
  induction later with
  | nil => rfl
  | cons arm later ih =>
    change _ :: (tokensAll arm.2 ++ elseTokens (chain later last)) = _
    rw [ih]
    simp [laterTokens]

theorem tokens_chain (earlier : List (String × List Node)) (condition : String) (nodes : List Node)
    (elseArm : Node) :
    tokens (chain earlier (conditional condition (sequence nodes) elseArm)) =
      chainTokens earlier condition ++ tokensAll nodes ++ elseTokens elseArm := by
  cases earlier with
  | nil => simp [chain, tokens, chainTokens]
  | cons arm later =>
    change _ :: (tokensAll arm.2 ++ elseTokens (chain later _)) = _
    rw [elseTokens_chain]
    simp [chainTokens, elseTokens, tokens]

theorem chainTokens_concat (earlier : List (String × List Node)) (condition next : String)
    (nodes : List Node) :
    chainTokens (earlier ++ [(condition, nodes)]) next =
      chainTokens earlier condition ++ tokensAll nodes ++ [.directive ("elseif(" ++ next ++ ")")] := by
  cases earlier <;> simp [chainTokens, laterTokens]

theorem elseShaped_chain {arms : List (String × List Node)} {last : Node}
    (h : ∀ arm ∈ arms, AllShaped arm.2) (hlast : last.IsElseArm ∧ last.WellShaped) :
    (chain arms last).IsElseArm ∧ (chain arms last).WellShaped := by
  induction arms with
  | nil => exact hlast
  | cons arm later ih =>
    have hlater := ih fun a ha => h a (List.mem_cons_of_mem _ ha)
    have harm : AllShaped arm.2 := h arm List.mem_cons_self
    have hshaped : (chain (arm :: later) last).WellShaped := ⟨⟨trivial, harm⟩, hlater⟩
    exact ⟨by simp [chain, IsElseArm], hshaped⟩

theorem shaped_chain {earlier : List (String × List Node)} {condition : String} {nodes : List Node}
    {elseArm : Node} (h : ∀ arm ∈ earlier, AllShaped arm.2) (hnodes : AllShaped nodes)
    (helse : elseArm.IsElseArm ∧ elseArm.WellShaped) :
    AllShaped [chain earlier (conditional condition (sequence nodes) elseArm)] := by
  let last := conditional condition (sequence nodes) elseArm
  have hlast : last.IsElseArm ∧ last.WellShaped := ⟨trivial, ⟨trivial, hnodes⟩, helse⟩
  have hne : chain earlier last ≠ text "" := by
    cases earlier <;> simp [chain, last]
  exact ⟨⟨hne, (elseShaped_chain h hlast).2⟩, trivial⟩

end Node

open Node

/-- The tokens of a block before those of its open part. -/
def Block.tokens : Block → List Token
  | thenArm earlier condition => chainTokens earlier condition
  | elseArm earlier condition nodes =>
    chainTokens earlier condition ++ tokensAll nodes ++ [.directive "else"]
  | body source => [.directive ("for(" ++ source ++ ")")]
  | separator source nodes =>
    .directive ("for(" ++ source ++ ")") :: (tokensAll nodes ++ [.directive "sep"])

def Block.Shaped : Block → Prop
  | thenArm earlier _ => ∀ arm ∈ earlier, AllShaped arm.2
  | elseArm earlier _ nodes => (∀ arm ∈ earlier, AllShaped arm.2) ∧ AllShaped nodes
  | body _ => True
  | separator _ nodes => AllShaped nodes

namespace Reading

def framesTokens : List Frame → List Token
  | [] => []
  | frame :: frames => framesTokens frames ++ tokensAll frame.before ++ frame.block.tokens

/-- All tokens that went into a reading. -/
def tokens (r : Reading) : List Token := framesTokens r.frames ++ tokensAll r.nodes

structure Shaped (r : Reading) : Prop where
  frames : ∀ frame ∈ r.frames, AllShaped frame.before ∧ frame.block.Shaped
  nodes : AllShaped r.nodes

/-- An open block comes after what stands before it, and before the nodes of its open part. -/
theorem tokens_cons (block : Block) (marker : Spanned String) (before nodes : List Node)
    (frames : List Frame) :
    tokens ⟨⟨block, marker, before⟩ :: frames, nodes⟩ =
      tokens ⟨frames, before⟩ ++ (block.tokens ++ tokensAll nodes) := by
  simp [tokens, framesTokens]

theorem tokens_append (r : Reading) (nodes : List Node) :
    (r.append nodes).tokens = r.tokens ++ tokensAll nodes := by
  simp [tokens, append, tokensAll_append]

theorem tokens_enter (r : Reading) (block : Block) (marker : Spanned String) :
    (r.enter block marker).tokens = r.tokens ++ block.tokens := by
  rw [enter, tokens_cons, tokensAll, List.append_nil]

theorem tokens_stop {r : Reading} {directive : Directive} (marker : Spanned String)
    (h : r.arm.stops directive = true) :
    (r.stop directive marker).tokens = r.tokens ++ [.directive directive.content] := by
  obtain ⟨frames, nodes⟩ := r
  cases frames with
  | nil => exact absurd h (by simp [arm, Arm.stops])
  | cons frame frames =>
    obtain ⟨block, opener, before⟩ := frame
    have hstops : block.phase.arm.stops directive = true := h
    -- a block that is taken off leaves one node to what stands before it
    have hnode (node : Node) :
        tokens ⟨frames, before ++ [node]⟩ = tokens ⟨frames, before⟩ ++ node.tokens := by
      have happend := tokens_append ⟨frames, before⟩ [node]
      rwa [tokensAll, tokensAll, List.append_nil] at happend
    rw [tokens_cons, List.append_assoc]
    cases block with
    | thenArm earlier condition =>
      cases directive with
      | elseIf next =>
        simp [stop, tokens_cons, Block.tokens, chainTokens_concat, tokensAll, Directive.content]
      | otherwise => simp [stop, tokens_cons, Block.tokens, tokensAll, Directive.content]
      | endIf =>
        simp [stop, hnode, Block.tokens, tokens_chain, elseTokens, Directive.content]
      | _ => exact absurd hstops (by simp [Block.phase, Phase.arm, Arm.stops])
    | elseArm earlier condition thenNodes =>
      cases directive with
      | endIf =>
        simp [stop, hnode, Block.tokens, tokens_chain, elseTokens, otherwiseTokens,
          Directive.content]
      | _ => exact absurd hstops (by simp [Block.phase, Phase.arm, Arm.stops])
    | body source =>
      cases directive with
      | sep => simp [stop, tokens_cons, Block.tokens, tokensAll, Directive.content]
      | endFor =>
        simp [stop, hnode, Block.tokens, Node.tokens, loopTokens, separatorTokens,
          Directive.content]
      | _ => exact absurd hstops (by simp [Block.phase, Phase.arm, Arm.stops])
    | separator source body =>
      cases directive with
      | endFor =>
        simp [stop, hnode, Block.tokens, Node.tokens, loopTokens, separatorTokens,
          Directive.content]
      | _ => exact absurd hstops (by simp [Block.phase, Phase.arm, Arm.stops])

theorem tokens_read {r : Reading} {marker : Spanned String} {directive : Directive}
    (h : Directive.classify marker.value = .ok directive) :
    (r.read directive marker).tokens = r.tokens ++ [.directive marker.value] := by
  have hcontent : directive.content = marker.value := Directive.content_of_classify h
  rw [← hcontent]
  unfold read
  split
  · exact tokens_stop marker ‹_›
  · cases directive with
    | ifBlock condition => rw [tokens_enter]; rfl
    | forBlock source => rw [tokens_enter]; rfl
    | _ => simp [tokens_append, tokensAll, Node.tokens, hcontent]

theorem shaped_append {r : Reading} {nodes : List Node} (h : r.Shaped) (hnodes : AllShaped nodes) :
    (r.append nodes).Shaped :=
  ⟨h.frames, allShaped_append.2 ⟨h.nodes, hnodes⟩⟩

theorem shaped_enter {r : Reading} {block : Block} (marker : Spanned String) (h : r.Shaped)
    (hblock : block.Shaped) : (r.enter block marker).Shaped := by
  refine ⟨?_, trivial⟩
  intro frame hframe
  rcases List.mem_cons.1 hframe with rfl | hframe
  · exact ⟨h.nodes, hblock⟩
  · exact h.frames frame hframe

theorem shaped_stop {r : Reading} (directive : Directive) (marker : Spanned String) (h : r.Shaped) :
    (r.stop directive marker).Shaped := by
  obtain ⟨frames, nodes⟩ := r
  cases frames with
  | nil => exact h
  | cons frame frames =>
    obtain ⟨block, opener, before⟩ := frame
    obtain ⟨hbefore, hblock⟩ := h.frames _ List.mem_cons_self
    have hnodes : AllShaped nodes := h.nodes
    -- what is left when the block is taken off
    have houter : Shaped ⟨frames, before⟩ :=
      ⟨fun frame hframe => h.frames frame (List.mem_cons_of_mem _ hframe), hbefore⟩
    cases block with
    | thenArm earlier condition =>
      cases directive with
      | elseIf next =>
        refine shaped_enter marker houter ?_
        intro arm harm
        rcases List.mem_append.1 harm with harm | harm
        · exact hblock arm harm
        · obtain rfl := List.mem_singleton.1 harm
          exact hnodes
      | otherwise => exact shaped_enter opener houter ⟨hblock, hnodes⟩
      | _ => exact shaped_append houter (shaped_chain hblock hnodes ⟨rfl, trivial⟩)
    | elseArm earlier condition thenNodes =>
      exact shaped_append houter (shaped_chain hblock.1 hblock.2 ⟨trivial, hnodes⟩)
    | body source =>
      cases directive with
      | sep => exact shaped_enter opener houter hnodes
      | _ =>
        exact shaped_append houter ⟨⟨by simp, ⟨trivial, hnodes⟩, trivial⟩, trivial⟩
    | separator source body =>
      exact shaped_append houter ⟨⟨by simp, ⟨trivial, hblock⟩, trivial, hnodes⟩, trivial⟩

theorem shaped_read {r : Reading} (directive : Directive) (marker : Spanned String) (h : r.Shaped) :
    (r.read directive marker).Shaped := by
  unfold read
  split
  · exact shaped_stop directive marker h
  · cases directive with
    | ifBlock condition => exact shaped_enter marker h (by simp [Block.Shaped])
    | forBlock source => exact shaped_enter marker h trivial
    | _ => exact shaped_append h ⟨⟨by simp, trivial⟩, trivial⟩

/-- A step adds its token, unless that is an empty text. -/
theorem step_lossless {r next : Reading} {t : Spanned Token} (h : r.step t = .ok next) :
    next.tokens = r.tokens ++ [t.value].filter (· ≠ .plain "") ∧ (r.Shaped → next.Shaped) := by
  obtain ⟨token, span⟩ := t
  cases token with
  | plain content =>
    cases h
    by_cases hc : content = ""
    · subst hc
      exact ⟨by simp [tokens_append, tokensAll], fun hr => shaped_append hr trivial⟩
    · refine ⟨by simp [tokens_append, tokensAll, Node.tokens, hc], fun hr => shaped_append hr ?_⟩
      simp [hc, AllShaped, WellShaped]
  | directive content =>
    unfold step at h
    cases hd : Directive.classify content with
    | error e => simp [hd] at h
    | ok directive =>
      simp only [hd, Except.ok.injEq] at h
      subst h
      exact ⟨tokens_read hd, shaped_read directive _⟩

theorem run_lossless {r : Reading} {ts : List (Spanned Token)} {tree : Node} (h : r.run ts = .ok tree) :
    tree.tokens = r.tokens ++ (ts.map (·.value)).filter (· ≠ .plain "") ∧
      (r.Shaped → tree.IsSequence ∧ tree.WellShaped) := by
  induction ts generalizing r with
  | nil =>
    obtain ⟨frames, nodes⟩ := r
    cases frames with
    | nil =>
      cases h
      exact ⟨by simp [tokens, framesTokens, Node.tokens], fun hr => ⟨trivial, hr.nodes⟩⟩
    | cons frame frames => cases h
  | cons t ts ih =>
    unfold run at h
    cases hs : r.step t with
    | error e => simp [hs] at h
    | ok next =>
      simp only [hs] at h
      obtain ⟨htokens, hshaped⟩ := step_lossless hs
      obtain ⟨htree, hwell⟩ := ih h
      refine ⟨?_, fun hr => hwell (hshaped hr)⟩
      rw [htree, htokens, List.append_assoc, ← List.filter_append]
      rfl

end Reading

namespace Node

theorem filter_eq_values {ts : List (Spanned Token)} (h : ∀ t ∈ ts, t.value ≠ .plain "") :
    (ts.map (·.value)).filter (· ≠ .plain "") = ts.map (·.value) := by
  rw [List.filter_eq_self]
  intro token htoken
  obtain ⟨t, ht, rfl⟩ := List.mem_map.1 htoken
  simpa using h t ht

theorem tokens_of_parse {ts : List (Spanned Token)} {tree : Node} (h : parse ts = .ok tree) :
    tree.tokens = (ts.map (·.value)).filter (· ≠ .plain "") := by
  rw [Reading.parse_eq_run] at h
  exact (Reading.run_lossless h).1

theorem shaped_of_parse {ts : List (Spanned Token)} {tree : Node} (h : parse ts = .ok tree) :
    tree.IsSequence ∧ tree.WellShaped := by
  rw [Reading.parse_eq_run] at h
  have hstart : Reading.start.Shaped := ⟨by simp [Reading.start], trivial⟩
  exact (Reading.run_lossless h).2 hstart

/-- Nothing is lost, doubled or reordered: a tree is written with the tokens that it was read from,
    empty texts aside. So no two lists of tokens without empty texts are read as one tree. -/
theorem parse_lossless {ts : List (Spanned Token)} {tree : Node} (h : parse ts = .ok tree) :
    tree.tokens = (ts.map (·.value)).filter (· ≠ .plain "") ∧
      (tree.IsSequence ∧ tree.WellShaped) ∧
      ∀ us : List (Spanned Token), parse us = .ok tree →
        (∀ t ∈ ts, t.value ≠ .plain "") → (∀ u ∈ us, u.value ≠ .plain "") →
          us.map (·.value) = ts.map (·.value) := by
  refine ⟨tokens_of_parse h, shaped_of_parse h, ?_⟩
  intro us hus hts husTexts
  rw [← filter_eq_values hts, ← filter_eq_values husTexts, ← tokens_of_parse h, ← tokens_of_parse hus]

/-- A chain in a loop, with a stray keyword in it; other spans change nothing. -/
theorem parse_lossless_chain :
    let tokens : List Token := [.directive "for(xs)", .directive "if(a)", .directive "sep",
      .directive "elseif(b)(c)", .plain "b", .directive "else", .directive "endif",
      .directive "sep", .directive "endfor"]
    let ts : List (Spanned Token) := tokens.map fun token => ⟨token, ⟨0, 0⟩⟩
    let us : List (Spanned Token) := tokens.map fun token => ⟨token, ⟨7, 1⟩⟩
    let tree := sequence [iteration "xs"
      (sequence [conditional "a" (sequence [lookup "sep"])
        (conditional "b)(c" (sequence [text "b"]) (sequence []))])
      (some (sequence []))]
    parse ts = .ok tree ∧ tree.tokens = tokens ∧ (tree.IsSequence ∧ tree.WellShaped) ∧
      us.map (·.value) = ts.map (·.value) := by
  intro tokens ts us tree
  have hts : parse ts = .ok tree := by
    rw [Reading.parse_eq_run]
    rfl
  have hus : parse us = .ok tree := by
    rw [Reading.parse_eq_run]
    rfl
  obtain ⟨htokens, hshaped, hunique⟩ := parse_lossless hts
  exact ⟨hts, htokens, hshaped, hunique us hus (by simp [ts, tokens]) (by simp [us, tokens])⟩

end Node
end Stencil
