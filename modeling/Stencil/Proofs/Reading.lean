import Stencil.Node.Parse

namespace Stencil

inductive Phase where
  | thenArm
  | elseArm
  | body
  | separator
  deriving DecidableEq, Repr

namespace Phase

def arm : Phase → Arm
  | thenArm => .thenArm
  | elseArm => .elseArm
  | body => .body
  | separator => .separator

def expected : Phase → String
  | thenArm => "'elseif(...)', 'else' or 'endif'"
  | elseArm => "'endif'"
  | body => "'sep' or 'endfor'"
  | separator => "'endfor'"

end Phase

/-- What has been read of a block before its open part. Conditions that a chain has passed come with
    their arms. -/
inductive Block where
  | thenArm (earlier : List (String × List Node)) (condition : String)
  | elseArm (earlier : List (String × List Node)) (condition : String) (thenArm : List Node)
  | body (source : String)
  | separator (source : String) (body : List Node)

def Block.phase : Block → Phase
  | thenArm _ _ => .thenArm
  | elseArm _ _ _ => .elseArm
  | body _ => .body
  | separator _ _ => .separator

/-- An open block, where it is reported if it is never closed, and what stands before it. -/
structure Frame where
  block : Block
  marker : Spanned String
  before : List Node

/-- A template that has been read up to some token: the open blocks, innermost first, and the nodes
    of the arm that is open. -/
structure Reading where
  frames : List Frame
  nodes : List Node

/-- Conditionals that stand in each other's else-arms. -/
def Node.chain (arms : List (String × List Node)) (last : Node) : Node :=
  arms.foldr (fun (condition, nodes) rest => conditional condition (sequence nodes) rest) last

theorem Node.chain_concat (arms : List (String × List Node)) (condition : String)
    (nodes : List Node) (last : Node) :
    chain (arms ++ [(condition, nodes)]) last =
      chain arms (conditional condition (sequence nodes) last) := by
  simp [chain]

namespace Reading

def start : Reading := ⟨[], []⟩

def arm (r : Reading) : Arm :=
  match r.frames with
  | [] => .root
  | frame :: _ => frame.block.phase.arm

def append (r : Reading) (nodes : List Node) : Reading := ⟨r.frames, r.nodes ++ nodes⟩

def enter (r : Reading) (block : Block) (marker : Spanned String) : Reading :=
  ⟨⟨block, marker, r.nodes⟩ :: r.frames, []⟩

/-- Ends the open arm at a directive that it stops at. -/
def stop (directive : Directive) (marker : Spanned String) : Reading → Reading
  | ⟨⟨block, opener, before⟩ :: frames, nodes⟩ =>
    match block, directive with
    | .thenArm earlier condition, .elseIf next =>
      ⟨⟨.thenArm (earlier ++ [(condition, nodes)]) next, marker, before⟩ :: frames, []⟩
    | .thenArm earlier condition, .otherwise =>
      ⟨⟨.elseArm earlier condition nodes, opener, before⟩ :: frames, []⟩
    | .thenArm earlier condition, _ =>
      ⟨frames, before ++ [.chain earlier (.conditional condition (.sequence nodes) (.text ""))]⟩
    | .elseArm earlier condition thenArm, _ =>
      ⟨frames, before ++
        [.chain earlier (.conditional condition (.sequence thenArm) (.sequence nodes))]⟩
    | .body source, .sep => ⟨⟨.separator source nodes, opener, before⟩ :: frames, []⟩
    | .body source, _ => ⟨frames, before ++ [.iteration source (.sequence nodes) none]⟩
    | .separator source body, _ =>
      ⟨frames, before ++ [.iteration source (.sequence body) (some (.sequence nodes))]⟩
  | r => r

def read (directive : Directive) (marker : Spanned String) (r : Reading) : Reading :=
  if r.arm.stops directive then r.stop directive marker
  else match directive with
    | .ifBlock condition => r.enter (.thenArm [] condition) marker
    | .forBlock source => r.enter (.body source) marker
    | _ => r.append [.lookup marker.value]

def step (r : Reading) : Spanned Token → Except (Spanned ParseError) Reading
  | ⟨.plain content, _⟩ => .ok (r.append (if content.isEmpty then [] else [.text content]))
  | ⟨.directive content, span⟩ =>
    match Directive.classify content with
    | .error e => .error ⟨e, span⟩
    | .ok directive => .ok (r.read directive ⟨content, span⟩)

def finish (r : Reading) : Except (Spanned ParseError) Node :=
  match r.frames with
  | [] => .ok (.sequence r.nodes)
  | frame :: _ => .error (Node.unterminated frame.marker frame.block.phase.expected)

def run (r : Reading) : List (Spanned Token) → Except (Spanned ParseError) Node
  | [] => r.finish
  | t :: ts =>
    match r.step t with
    | .error e => .error e
    | .ok r => r.run ts

/-- Goes on where an arm has been read. -/
def resume {ts : List (Spanned Token)} (r : Reading) :
    Except (Spanned ParseError) (Node.Stretch ts) → Except (Spanned ParseError) Node
  | .error e => .error e
  | .ok (.closed nodes directive marker rest) =>
    ((r.append nodes).stop directive marker).run rest.tokens
  | .ok (.unclosed nodes) => (r.append nodes).finish

def resumeBlock {ts : List (Spanned Token)} (r : Reading) (wrap : Node → Node) :
    Except (Spanned ParseError) (Node × Node.Rest ts) → Except (Spanned ParseError) Node
  | .error e => .error e
  | .ok (node, left) => (r.append [wrap node]).run left.tokens

@[simp] theorem arm_append (r : Reading) (nodes : List Node) : (r.append nodes).arm = r.arm := rfl

@[simp] theorem append_append (r : Reading) (xs ys : List Node) :
    (r.append xs).append ys = r.append (xs ++ ys) := by
  simp [append]

theorem resume_prepend {ts us : List (Spanned Token)} (r : Reading) (front : List Node)
    (h : us.length ≤ ts.length) (x : Except (Spanned ParseError) (Node.Stretch us)) :
    r.resume (x.map (Node.Stretch.prepend front h)) = (r.append front).resume x := by
  cases x with
  | error e => rfl
  | ok s => cases s <;> simp [Except.map, Node.Stretch.prepend, resume]

theorem read_lookup {r : Reading} {directive : Directive} (marker : Spanned String)
    (hs : ¬ r.arm.stops directive = true) (hif : ∀ condition, directive ≠ .ifBlock condition)
    (hfor : ∀ source, directive ≠ .forBlock source) :
    r.read directive marker = r.append [.lookup marker.value] := by
  unfold read
  rw [if_neg hs]
  cases directive with
  | ifBlock condition => exact absurd rfl (hif condition)
  | forBlock source => exact absurd rfl (hfor source)
  | _ => rfl

theorem readArm_lookup {arm : Arm} {content : String} {span : Span} {rest : List (Spanned Token)}
    {directive : Directive} (hd : Directive.classify content = .ok directive)
    (hs : ¬ arm.stops directive = true) (hif : ∀ condition, directive ≠ .ifBlock condition)
    (hfor : ∀ source, directive ≠ .forBlock source) :
    Node.readArm arm (⟨.directive content, span⟩ :: rest) =
      (Node.readArm arm rest).map (Node.Stretch.prepend [.lookup content] (Nat.le_succ _)) := by
  rw [Node.readArm]
  simp only [hd, hs]
  cases directive with
  | ifBlock condition => exact absurd rfl (hif condition)
  | forBlock source => exact absurd rfl (hfor source)
  | _ => rfl

/-- Reading an arm token by token comes to what reading it at once comes to. -/
def ArmAgrees (arm : Arm) (ts : List (Spanned Token)) : Prop :=
  ∀ r : Reading, r.arm = arm → r.run ts = r.resume (Node.readArm arm ts)

def LoopAgrees (source : String) (opener : Spanned String) (ts : List (Spanned Token)) : Prop :=
  ∀ r : Reading, (r.enter (.body source) opener).run ts =
    r.resumeBlock id (Node.readIteration source opener ts)

/-- What is chained to earlier arms becomes one node with them. -/
def ConditionalAgrees (condition : String) (opener : Spanned String) (ts : List (Spanned Token)) :
    Prop :=
  ∀ (r : Reading) (earlier : List (String × List Node)),
    (r.enter (.thenArm earlier condition) opener).run ts =
      r.resumeBlock (Node.chain earlier) (Node.readConditional condition opener ts)

theorem resumeBlock_eq_resume {arm : Arm} {ts us : List (Spanned Token)} (r : Reading) (hr : r.arm = arm)
    (h : ∀ left : Node.Rest us, left.tokens.length ≤ ts.length)
    (ih : ∀ left : Node.Rest us, ArmAgrees arm left.tokens)
    (x : Except (Spanned ParseError) (Node × Node.Rest us)) :
    r.resumeBlock id x = r.resume (do
      let (node, left) ← x
      let more ← Node.readArm arm left.tokens
      return Node.Stretch.prepend [node] (h left) more) := by
  cases x with
  | error e => rfl
  | ok found =>
    obtain ⟨node, left⟩ := found
    change (r.append [node]).run left.tokens = r.resume ((Node.readArm arm left.tokens).map _)
    rw [resume_prepend, ih left _ (by simpa using hr)]

theorem loopAgrees {source : String} {opener : Spanned String} {ts : List (Spanned Token)}
    (ihBody : ArmAgrees .body ts)
    (ihSeparator : ∀ rest : Node.Rest ts, ArmAgrees .separator rest.tokens) :
    LoopAgrees source opener ts := by
  intro r
  rw [ihBody _ rfl, Node.readIteration]
  cases Node.readArm .body ts with
  | error e => rfl
  | ok stretch =>
    cases stretch with
    | unclosed nodes => rfl
    | closed nodes directive marker rest =>
      cases directive with
      | sep =>
        let inner := r.enter (.separator source nodes) opener
        change inner.run rest.tokens =
          r.resumeBlock id (bind (Node.readArm .separator rest.tokens) _)
        rw [ihSeparator rest inner rfl]
        cases Node.readArm .separator rest.tokens with
        | error e => rfl
        | ok stretch => cases stretch <;> rfl
      | _ => rfl

theorem conditionalAgrees {condition : String} {opener : Spanned String} {ts : List (Spanned Token)}
    (ihThen : ArmAgrees .thenArm ts)
    (ihChain : ∀ next marker (rest : Node.Rest ts), ConditionalAgrees next marker rest.tokens)
    (ihElse : ∀ rest : Node.Rest ts, ArmAgrees .elseArm rest.tokens) :
    ConditionalAgrees condition opener ts := by
  intro r earlier
  -- the reading collects a chain from the front, the recursive reader from the back
  rw [ihThen _ rfl, Node.readConditional]
  cases Node.readArm .thenArm ts with
  | error e => rfl
  | ok stretch =>
    cases stretch with
    | unclosed nodes => rfl
    | closed nodes directive marker rest =>
      cases directive with
      | elseIf next =>
        let inner := r.enter (.thenArm (earlier ++ [(condition, nodes)]) next) marker
        change inner.run rest.tokens =
          r.resumeBlock (Node.chain earlier) (bind (Node.readConditional next marker rest.tokens) _)
        rw [ihChain next marker rest r (earlier ++ [(condition, nodes)])]
        cases Node.readConditional next marker rest.tokens with
        | error e => rfl
        | ok found =>
          rw [resumeBlock, Node.chain_concat]
          rfl
      | otherwise =>
        let inner := r.enter (.elseArm earlier condition nodes) opener
        change inner.run rest.tokens =
          r.resumeBlock (Node.chain earlier) (bind (Node.readArm .elseArm rest.tokens) _)
        rw [ihElse rest inner rfl]
        cases Node.readArm .elseArm rest.tokens with
        | error e => rfl
        | ok stretch => cases stretch <;> rfl
      | _ => rfl

/-- The recursive reader agrees with the reading token by token. -/
theorem armAgrees (arm : Arm) (ts : List (Spanned Token)) : ArmAgrees arm ts := by
  refine (Node.readArm.mutual_induct ArmAgrees LoopAgrees ConditionalAgrees
    ?nil ?plain ?malformed ?stop ?ifBlock ?forBlock ?lookup ?loop ?conditional).1 arm ts
  case nil =>
    intro arm r hr
    rw [Node.readArm]
    simp [run, resume, append]
  case plain =>
    intro arm content span rest ih r hr
    rw [Node.readArm]
    change _ = r.resume ((Node.readArm arm rest).map _)
    rw [resume_prepend, ← ih _ (by simpa using hr), run, step]
  case malformed =>
    intro arm content span rest e he r hr
    rw [Node.readArm]
    simp only [he, run, step, resume]
  case stop =>
    intro arm content span rest directive hd hs r hr
    rw [Node.readArm]
    simp only [hd, run, step, resume, read, hr, hs, if_true]
    simp [append]
  case ifBlock =>
    intro arm content span rest condition hd hs ihBlock ih r hr
    rw [Node.readArm, run, step]
    simp only [hd, read, hr, hs]
    exact (ihBlock r []).trans (resumeBlock_eq_resume r hr _ ih _)
  case forBlock =>
    intro arm content span rest source hd hs ihBlock ih r hr
    rw [Node.readArm, run, step]
    simp only [hd, read, hr, hs]
    exact (ihBlock r).trans (resumeBlock_eq_resume r hr _ ih _)
  case lookup =>
    intro arm content span rest directive hd hs hif hfor ih r hr
    have hread : r.read directive ⟨content, span⟩ = r.append [.lookup content] :=
      read_lookup _ (by rwa [hr]) hif hfor
    rw [readArm_lookup hd hs hif hfor, resume_prepend, ← ih _ (by simpa using hr), run, step]
    simp only [hd, hread]
  case loop => exact fun _ _ _ => loopAgrees
  case conditional => exact fun _ _ _ => conditionalAgrees

/-- An arm that has ended ended at one of its stops. -/
def EndsAt (arm : Arm) {ts : List (Spanned Token)} :
    Except (Spanned ParseError) (Node.Stretch ts) → Prop
  | .ok (.closed _ directive _ _) => arm.stops directive = true
  | _ => True

theorem endsAt_prepend {arm : Arm} {ts us : List (Spanned Token)} {front : List Node}
    (h : us.length ≤ ts.length) {x : Except (Spanned ParseError) (Node.Stretch us)}
    (hx : EndsAt arm x) : EndsAt arm (x.map (Node.Stretch.prepend front h)) := by
  cases x with
  | error e => exact hx
  | ok stretch => cases stretch <;> exact hx

theorem endsAt_readArm (arm : Arm) (ts : List (Spanned Token)) : EndsAt arm (Node.readArm arm ts) := by
  refine (Node.readArm.mutual_induct (fun arm ts => EndsAt arm (Node.readArm arm ts))
    (fun _ _ _ => True) (fun _ _ _ => True)
    ?nil ?plain ?malformed ?stop ?ifBlock ?forBlock ?lookup ?loop ?conditional).1 arm ts
  case nil =>
    intro arm
    rw [Node.readArm]
    trivial
  case plain =>
    intro arm content span rest ih
    rw [Node.readArm]
    exact endsAt_prepend _ ih
  case malformed =>
    intro arm content span rest e he
    rw [Node.readArm]
    simp only [he, EndsAt]
  case stop =>
    intro arm content span rest directive hd hs
    rw [Node.readArm]
    simp only [hd, hs, if_true]
    exact hs
  case ifBlock =>
    intro arm content span rest condition hd hs _ ih
    rw [Node.readArm]
    simp only [hd, hs]
    cases Node.readConditional condition ⟨content, span⟩ rest with
    | error e => trivial
    | ok found => exact endsAt_prepend _ (ih found.2)
  case forBlock =>
    intro arm content span rest source hd hs _ ih
    rw [Node.readArm]
    simp only [hd, hs]
    cases Node.readIteration source ⟨content, span⟩ rest with
    | error e => trivial
    | ok found => exact endsAt_prepend _ (ih found.2)
  case lookup =>
    intro arm content span rest directive hd hs hif hfor ih
    rw [readArm_lookup hd hs hif hfor]
    exact endsAt_prepend _ ih
  case loop => exact fun _ _ _ _ _ => trivial
  case conditional => exact fun _ _ _ _ _ _ => trivial

/-- Parsing is reading token by token, from where nothing has been read. -/
theorem parse_eq_run (ts : List (Spanned Token)) : Node.parse ts = start.run ts := by
  rw [armAgrees .root ts start rfl, Node.parse]
  cases h : Node.readArm .root ts with
  | error e => rfl
  | ok stretch =>
    cases stretch with
    | unclosed nodes => rfl
    | closed nodes directive marker rest =>
      have hroot := endsAt_readArm .root ts
      rw [h] at hroot
      exact absurd hroot (by simp [EndsAt, Arm.stops])

end Reading
end Stencil
