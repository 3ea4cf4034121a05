import Stencil.Proofs.Reading

namespace Stencil

def Spanned.move {α : Type} (f : Span → Span) (x : Spanned α) : Spanned α := ⟨x.value, f x.span⟩

def relocateResult {ε α : Type} (move : Span → Span) (f : α → α) :
    Except (Spanned ε) α → Except (Spanned ε) α
  | .ok a => .ok (f a)
  | .error e => .error (e.move move)

/-- Puts nodes in front of those of a sequence. -/
def Node.behind (front : List Node) : Node → Node
  | sequence nodes => sequence (front ++ nodes)
  | node => node

namespace Reading

/-- The reading after all tokens of a list. -/
def steps (r : Reading) (ts : List (Spanned Token)) : Except (Spanned ParseError) Reading :=
  ts.foldlM step r

theorem steps_append (r : Reading) (ts us : List (Spanned Token)) :
    r.steps (ts ++ us) = r.steps ts >>= (·.steps us) := by
  simp [steps, List.foldlM_append]

theorem steps_cons (r : Reading) (t : Spanned Token) (ts : List (Spanned Token)) :
    r.steps (t :: ts) = r.step t >>= (·.steps ts) := by
  simp [steps]

theorem run_eq_steps (r : Reading) (ts : List (Spanned Token)) : r.run ts = r.steps ts >>= finish := by
  induction ts generalizing r with
  | nil => rfl
  | cons t ts ih =>
    rw [run, steps_cons]
    cases r.step t with
    | error e => rfl
    | ok next => exact ih next

section Relocate

variable (front : List Node) (move : Span → Span)

def relocateFrames : List Frame → List Node → Reading
  | [], nodes => ⟨[], front ++ nodes⟩
  | frame :: frames, nodes =>
    ((relocateFrames frames frame.before).enter frame.block (frame.marker.move move)).append nodes

/-- What a reading would be if nodes had been read before it, and its tokens stood elsewhere. -/
def relocate (r : Reading) : Reading := relocateFrames front move r.frames r.nodes

variable {front move}

theorem relocate_append (r : Reading) (nodes : List Node) :
    (r.append nodes).relocate front move = (r.relocate front move).append nodes := by
  obtain ⟨frames, before⟩ := r
  cases frames <;> simp [relocate, relocateFrames, append]

theorem relocate_enter (r : Reading) (block : Block) (marker : Spanned String) :
    (r.enter block marker).relocate front move =
      (r.relocate front move).enter block (marker.move move) := rfl

theorem arm_relocate (r : Reading) : (r.relocate front move).arm = r.arm := by
  obtain ⟨frames, nodes⟩ := r
  cases frames <;> rfl

theorem relocate_stop (directive : Directive) (marker : Spanned String) (r : Reading) :
    (r.stop directive marker).relocate front move =
      (r.relocate front move).stop directive (marker.move move) := by
  obtain ⟨frames, nodes⟩ := r
  cases frames with
  | nil => rfl
  | cons frame frames =>
    obtain ⟨block, opener, before⟩ := frame
    -- a block that is taken off leaves one node to the reading that it was entered from
    have hclose (node : Node) :
        relocate front move ⟨frames, before ++ [node]⟩ =
          (relocate front move ⟨frames, before⟩).append [node] :=
      relocate_append ⟨frames, before⟩ [node]
    cases block with
    | thenArm earlier condition =>
      cases directive with
      | elseIf next => rfl
      | otherwise => rfl
      | _ => exact hclose _
    | elseArm earlier condition thenArm => exact hclose _
    | body source =>
      cases directive with
      | sep => rfl
      | _ => exact hclose _
    | separator source body => exact hclose _

theorem relocate_read (directive : Directive) (marker : Spanned String) (r : Reading) :
    (r.read directive marker).relocate front move =
      (r.relocate front move).read directive (marker.move move) := by
  unfold read
  rw [arm_relocate]
  split
  · exact relocate_stop directive marker r
  · cases directive with
    | ifBlock condition => exact relocate_enter r _ marker
    | forBlock source => exact relocate_enter r _ marker
    | _ => exact relocate_append r _

theorem step_relocate (r : Reading) (t : Spanned Token) :
    (r.relocate front move).step (t.move move) =
      relocateResult move (relocate front move) (r.step t) := by
  obtain ⟨token, span⟩ := t
  cases token with
  | plain content => exact congrArg Except.ok (relocate_append r _).symm
  | directive content =>
    simp only [step, Spanned.move]
    cases Directive.classify content with
    | error e => rfl
    | ok directive => exact congrArg Except.ok (relocate_read directive ⟨content, span⟩ r).symm

theorem steps_relocate (r : Reading) (ts : List (Spanned Token)) :
    (r.relocate front move).steps (ts.map (·.move move)) =
      relocateResult move (relocate front move) (r.steps ts) := by
  induction ts generalizing r with
  | nil => rfl
  | cons t ts ih =>
    rw [List.map_cons, steps_cons, steps_cons, step_relocate]
    cases r.step t with
    | error e => rfl
    | ok next => exact ih next

theorem finish_relocate (r : Reading) :
    (r.relocate front move).finish = relocateResult move (Node.behind front) r.finish := by
  obtain ⟨frames, nodes⟩ := r
  cases frames <;> rfl

theorem run_relocate (r : Reading) (ts : List (Spanned Token)) :
    (r.relocate front move).run (ts.map (·.move move)) =
      relocateResult move (Node.behind front) (r.run ts) := by
  rw [run_eq_steps, run_eq_steps, steps_relocate]
  cases r.steps ts with
  | error e => rfl
  | ok next => exact finish_relocate next

end Relocate

end Reading

namespace Node

theorem behind_nil : behind [] = id := by
  funext node
  cases node <;> rfl

theorem parse_move (move : Span → Span) (ts : List (Spanned Token)) :
    parse (ts.map (·.move move)) = relocateResult move id (parse ts) := by
  rw [Reading.parse_eq_run, Reading.parse_eq_run, ← behind_nil]
  exact @Reading.run_relocate [] move Reading.start ts

/-- Spans have no part in what tree is read. -/
theorem parse_eq_ok_of_values {ts us : List (Spanned Token)} {tree : Node}
    (hvalues : us.map (·.value) = ts.map (·.value)) (h : parse ts = .ok tree) :
    parse us = .ok tree := by
  let still : Span → Span := fun _ => ⟨0, 0⟩
  have hmoved (xs : List (Spanned Token)) :
      xs.map (·.move still) = (xs.map (·.value)).map fun token => ⟨token, ⟨0, 0⟩⟩ := by
    simp [Spanned.move, still]
  have hsame : relocateResult still id (parse us) = .ok tree := by
    rw [← parse_move, hmoved, hvalues, ← hmoved, parse_move, h]
    rfl
  cases hus : parse us with
  | error e =>
    rw [hus] at hsame
    cases hsame
  | ok other =>
    rw [hus] at hsame
    exact hsame

end Node
end Stencil
