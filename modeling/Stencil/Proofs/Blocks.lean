import Stencil.Proofs.Directive
import Stencil.Proofs.Reading

namespace Stencil

def Token.malformed : Token → Bool
  | .plain _ => false
  | .directive content => Directive.malformed content

structure OpenBlock where
  phase : Phase
  /-- The directive that the block is reported at. -/
  marker : Spanned String
  deriving DecidableEq, Repr

namespace OpenBlock

/-- What the innermost block makes of a directive that does not open one. -/
def react (block : OpenBlock) (below : List OpenBlock) (marker : Spanned String) : List OpenBlock :=
  match block.phase with
  | .thenArm =>
    if Directive.opensWith "elseif(" marker.value then ⟨.thenArm, marker⟩ :: below
    else if marker.value = "else" then ⟨.elseArm, block.marker⟩ :: below
    else if marker.value = "endif" then below
    else block :: below
  | .elseArm => if marker.value = "endif" then below else block :: below
  | .body =>
    if marker.value = "sep" then ⟨.separator, block.marker⟩ :: below
    else if marker.value = "endfor" then below
    else block :: below
  | .separator => if marker.value = "endfor" then below else block :: below

def stepDirective (blocks : List OpenBlock) (marker : Spanned String) : List OpenBlock :=
  if Directive.opensWith "if(" marker.value then ⟨.thenArm, marker⟩ :: blocks
  else if Directive.opensWith "for(" marker.value then ⟨.body, marker⟩ :: blocks
  else match blocks with
    | [] => []
    | block :: below => block.react below marker

def step (blocks : List OpenBlock) (t : Spanned Token) : List OpenBlock :=
  match t.value with
  | .plain _ => blocks
  | .directive content => stepDirective blocks ⟨content, t.span⟩

end OpenBlock

namespace Reading

def blocks (r : Reading) : List OpenBlock :=
  r.frames.map fun frame => ⟨frame.block.phase, frame.marker⟩

theorem blocks_read {r : Reading} {marker : Spanned String} {directive : Directive}
    (h : Directive.classify marker.value = .ok directive) :
    (r.read directive marker).blocks = OpenBlock.stepDirective r.blocks marker := by
  -- the block machine compares texts where the reading compares directives
  obtain ⟨hif, helseIf, hfor⟩ := Directive.opensWith_of_classify h
  have helse : marker.value = "else" ↔ directive = .otherwise :=
    Directive.eq_content_iff h .otherwise (by simp)
  have hendIf : marker.value = "endif" ↔ directive = .endIf :=
    Directive.eq_content_iff h .endIf (by simp)
  have hsep : marker.value = "sep" ↔ directive = .sep :=
    Directive.eq_content_iff h .sep (by simp)
  have hendFor : marker.value = "endfor" ↔ directive = .endFor :=
    Directive.eq_content_iff h .endFor (by simp)
  obtain ⟨frames, nodes⟩ := r
  cases frames with
  | nil =>
    cases directive <;>
      simp [blocks, read, arm, Arm.stops, Block.phase, enter, append, OpenBlock.stepDirective, hif, hfor]
  | cons frame frames =>
    obtain ⟨block, opener, before⟩ := frame
    cases block <;> cases directive <;>
      simp [blocks, read, arm, Arm.stops, Phase.arm, Block.phase, enter, append, stop,
        OpenBlock.stepDirective, OpenBlock.react, hif, helseIf, hfor, helse, hendIf, hsep, hendFor]

theorem step_of_malformed {t : Spanned Token} (h : t.value.malformed = true) (r : Reading) :
    r.step t = .error ⟨.malformedDirective t.value.content, t.span⟩ := by
  obtain ⟨token, span⟩ := t
  cases token with
  | plain content => exact absurd h (by simp [Token.malformed])
  | directive content =>
    have he : Directive.classify content = .error (.malformedDirective content) :=
      Directive.classify_eq_error_iff.2 ⟨h, rfl⟩
    rw [step, he]
    rfl

theorem step_of_not_malformed {t : Spanned Token} (h : t.value.malformed = false) (r : Reading) :
    ∃ next, r.step t = .ok next ∧ next.blocks = OpenBlock.step r.blocks t := by
  obtain ⟨token, span⟩ := t
  cases token with
  | plain content => exact ⟨_, rfl, rfl⟩
  | directive content =>
    cases hc : Directive.classify content with
    | error e =>
      have hm := (Directive.classify_eq_error_iff.1 hc).1
      exact absurd (hm.symm.trans h) (by simp)
    | ok directive =>
      refine ⟨r.read directive ⟨content, span⟩, ?_, blocks_read hc⟩
      rw [step, hc]

theorem finish_eq_blocks (r : Reading) :
    match r.blocks with
    | [] => ∃ tree, r.finish = .ok tree
    | block :: _ =>
      r.finish =
        .error ⟨.unterminatedBlock block.marker.value block.phase.expected, block.marker.span⟩ := by
  obtain ⟨frames, nodes⟩ := r
  cases frames with
  | nil => exact ⟨_, rfl⟩
  | cons frame frames => rfl

theorem run_eq_blocks (r : Reading) (ts : List (Spanned Token)) :
    match ts.find? (·.value.malformed) with
    | some t => r.run ts = .error ⟨.malformedDirective t.value.content, t.span⟩
    | none =>
      match ts.foldl OpenBlock.step r.blocks with
      | [] => ∃ tree, r.run ts = .ok tree
      | block :: _ =>
        r.run ts =
          .error ⟨.unterminatedBlock block.marker.value block.phase.expected, block.marker.span⟩ := by
  induction ts generalizing r with
  | nil => exact finish_eq_blocks r
  | cons t ts ih =>
    cases hm : t.value.malformed with
    | true =>
      simp only [List.find?_cons, hm, run, step_of_malformed hm]
    | false =>
      obtain ⟨next, hstep, hnext⟩ := step_of_not_malformed hm r
      -- the machine's state after the token is the one that the next reading shows
      simp only [List.find?_cons, hm, List.foldl_cons, ← hnext, run, hstep]
      exact ih next

end Reading

namespace Node

/-- Parsing decides as the block machine does. A malformed directive fails it, the first one in
    order, whatever is open. Otherwise it succeeds exactly if no block is left open at the end, and
    else reports the innermost one. -/
theorem parse_eq_blocks (ts : List (Spanned Token)) :
    match ts.find? (·.value.malformed) with
    | some t => parse ts = .error ⟨.malformedDirective t.value.content, t.span⟩
    | none =>
      match ts.foldl OpenBlock.step [] with
      | [] => ∃ tree, parse ts = .ok tree
      | block :: _ =>
        parse ts =
          .error ⟨.unterminatedBlock block.marker.value block.phase.expected, block.marker.span⟩ := by
  rw [Reading.parse_eq_run]
  exact Reading.run_eq_blocks Reading.start ts

end Node
end Stencil
