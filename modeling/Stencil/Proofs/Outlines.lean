import Mathlib.Data.Set.Function
import Stencil.Node.Outline
import Stencil.Proofs.Codes
import Stencil.Proofs.Noninterference

namespace Stencil

namespace Text

theorem escapes_quoteChar : Escapes quoteChar := by
  intro c
  unfold quoteChar
  split
  · exact .inr ⟨_, rfl, .mark '"' (by decide) (by decide)⟩
  · exact .inr ⟨_, rfl, .mark '\\' (by decide) (by decide)⟩
  · exact .inr ⟨_, rfl, .mark 't' (by decide) (by decide)⟩
  · exact .inr ⟨_, rfl, .mark 'r' (by decide) (by decide)⟩
  · exact .inr ⟨_, rfl, .mark 'n' (by decide) (by decide)⟩
  · exact .inr ⟨_, rfl, .mark '0' (by decide) (by decide)⟩
  · rename_i hbackslash _ _ hnewline _
    split
    · exact .inr ⟨_, rfl, .code c⟩
    · exact .inl ⟨rfl, hbackslash, hnewline⟩

theorem quoted_injective : Function.Injective quoted := by
  intro x y h
  have hlist := congrArg String.toList h
  simp only [quoted, String.toList_append, String.toList_ofList] at hlist
  have htext := List.append_cancel_left (List.append_cancel_right hlist)
  exact String.toList_inj.1 (escapes_quoteChar.flatMap_injective htext)

theorem newline_not_mem_quoted (text : String) : '\n' ∉ (quoted text).toList := by
  have htext := escapes_quoteChar.newline_not_mem text.toList
  simp only [quoted, String.toList_append, String.toList_ofList]
  simp [-List.mem_flatMap, htext]

end Text

namespace Node

/-- What a line of an outline says. -/
inductive Heading where
  | text (content : String)
  | lookup (path : String)
  | conditional (condition : String)
  | iteration (source : String)
  | sequence
  /-- Stands above an else-arm. -/
  | otherwise
  /-- Stands above a separator. -/
  | between

namespace Heading

def name : Heading → String
  | text _ => "Text"
  | lookup _ => "Variable"
  | conditional _ => "Conditional"
  | iteration _ => "Iteration"
  | sequence => "Sequence"
  | otherwise => "else"
  | between => "sep"

/-- The path that a heading names. -/
def path? : Heading → Option String
  | lookup path => some path
  | conditional condition => some condition
  | iteration source => some source
  | _ => none

/-- What stands in brackets behind the name. -/
def inner? : Heading → Option String
  | text content => some (Text.quoted content)
  | h => h.path?

def words (h : Heading) : List Char :=
  match h.inner? with
  | some inner => h.name.toList ++ '<' :: (inner.toList ++ ['>'])
  | none => h.name.toList

theorem eq_of_name_of_inner {h k : Heading} (hname : h.name = k.name)
    (hinner : h.inner? = k.inner?) : h = k := by
  cases h <;> cases k <;> try first
    | rfl
    | exact absurd hname (by dsimp only [name]; decide)
  · exact congrArg text (Text.quoted_injective (Option.some.inj hinner))
  · exact congrArg lookup (Option.some.inj hinner)
  · exact congrArg conditional (Option.some.inj hinner)
  · exact congrArg iteration (Option.some.inj hinner)

theorem bracket_not_mem_name (h : Heading) : '<' ∉ h.name.toList := by
  cases h <;> dsimp only [name] <;> decide

theorem newline_not_mem_name (h : Heading) : '\n' ∉ h.name.toList := by
  cases h <;> dsimp only [name] <;> decide

theorem cut?_words (h : Heading) :
    Text.cut? '<' h.words = h.inner?.map fun inner => (h.name.toList, inner.toList ++ ['>']) := by
  unfold words
  cases h.inner? with
  | none => exact Text.cut?_eq_none_iff.2 h.bracket_not_mem_name
  | some inner => exact Text.cut?_eq_some_iff.2 ⟨rfl, h.bracket_not_mem_name⟩

theorem words_injective : Function.Injective words := by
  intro h k hwords
  have hcut := (h.cut?_words).symm.trans (hwords ▸ k.cut?_words)
  cases hh : h.inner? with
  | none =>
    cases hk : k.inner? with
    | none =>
      have hname : h.name = k.name := by simpa [words, hh, hk, String.toList_inj] using hwords
      exact eq_of_name_of_inner hname (hh.trans hk.symm)
    | some inner =>
      rw [hh, hk] at hcut
      cases hcut
  | some inner =>
    cases hk : k.inner? with
    | none =>
      rw [hh, hk] at hcut
      cases hcut
    | some other =>
      rw [hh, hk] at hcut
      obtain ⟨hname, hrest⟩ := Prod.mk.inj (Option.some.inj hcut)
      have hinner : inner = other := String.toList_inj.1 (List.append_cancel_right hrest)
      exact eq_of_name_of_inner (String.toList_inj.1 hname) (by rw [hh, hk, hinner])

/-- Only a path can break a line. -/
theorem newline_not_mem_words {h : Heading} (hpath : ∀ path ∈ h.path?, '\n' ∉ path.toList) :
    '\n' ∉ h.words := by
  have hname := h.newline_not_mem_name
  have hinner : ∀ inner ∈ h.inner?, '\n' ∉ inner.toList := by
    cases h with
    | text content =>
      intro inner heq
      obtain rfl := Option.some.inj heq
      exact Text.newline_not_mem_quoted content
    | _ => exact hpath
  unfold words
  cases heq : h.inner? with
  | none => exact hname
  | some inner =>
    have hcontent := hinner inner heq
    simp [hname, hcontent]

/-- No heading starts with a blank. -/
theorem head?_words (h : Heading) : h.words.head? ≠ some ' ' := by
  have hname : h.name.toList ≠ [] ∧ h.name.toList.head? ≠ some ' ' := by
    cases h <;> dsimp only [name] <;> decide
  obtain ⟨c, rest, hcons⟩ := List.exists_cons_of_ne_nil hname.1
  unfold words
  rw [hcons] at hname ⊢
  split <;> exact hname.2

end Heading

/-- A line of an outline. -/
structure Entry where
  depth : Nat
  heading : Heading

namespace Entry

def line (e : Entry) : List Char := List.replicate (4 * e.depth) ' ' ++ e.heading.words

/-- The path that a line names, if any, does not break it. -/
def OneLine (e : Entry) : Prop := ∀ path ∈ e.heading.path?, '\n' ∉ path.toList

theorem newline_not_mem_line {e : Entry} (h : e.OneLine) : '\n' ∉ e.line := by
  have hwords := Heading.newline_not_mem_words h
  simp [line, hwords]

theorem blanks_append_inj {n m : Nat} {xs ys : List Char} (hxs : xs.head? ≠ some ' ')
    (hys : ys.head? ≠ some ' ')
    (h : List.replicate n ' ' ++ xs = List.replicate m ' ' ++ ys) : n = m ∧ xs = ys := by
  induction n generalizing m with
  | zero =>
    cases m with
    | zero => exact ⟨rfl, h⟩
    | succ m =>
      obtain rfl : xs = ' ' :: (List.replicate m ' ' ++ ys) := h
      exact absurd rfl hxs
  | succ n ih =>
    cases m with
    | zero =>
      obtain rfl : ' ' :: (List.replicate n ' ' ++ xs) = ys := h
      exact absurd rfl hys
    | succ m =>
      obtain ⟨rfl, hrest⟩ := ih (List.cons.inj h).2
      exact ⟨rfl, hrest⟩

theorem line_injective : Function.Injective line := by
  intro e f h
  obtain ⟨hblanks, hwords⟩ := blanks_append_inj e.heading.head?_words f.heading.head?_words h
  have hdepth : e.depth = f.depth := by omega
  have hheading := Heading.words_injective hwords
  cases e
  cases f
  cases hdepth
  cases hheading
  rfl

theorem prefixCode_line : PrefixCode {e | OneLine e} fun e => e.line ++ ['\n'] :=
  .ofLines (fun _ h => newline_not_mem_line h) line_injective.injOn

end Entry

mutual

/-- The lines of an outline. -/
def entries (depth : Nat) : Node → List Entry
  | text content => [⟨depth, .text content⟩]
  | lookup path => [⟨depth, .lookup path⟩]
  | conditional condition thenArm elseArm =>
    ⟨depth, .conditional condition⟩ ::
      (entries (depth + 1) thenArm ++ ⟨depth, .otherwise⟩ :: entries (depth + 1) elseArm)
  | iteration source body separator =>
    ⟨depth, .iteration source⟩ :: (entries (depth + 1) body ++ separatorEntries depth separator)
  | sequence nodes => ⟨depth, .sequence⟩ :: entriesAll (depth + 1) nodes

def separatorEntries (depth : Nat) : Option Node → List Entry
  | none => []
  | some between => ⟨depth, .between⟩ :: entries (depth + 1) between

def entriesAll (depth : Nat) : List Node → List Entry
  | [] => []
  | node :: rest => entries depth node ++ entriesAll depth rest

end

theorem toList_outlineLine {content : String} {heading : Heading}
    (h : content.toList = heading.words) (depth : Nat) :
    (outlineLine depth content).toList = (⟨depth, heading⟩ : Entry).line ++ ['\n'] := by
  simp [outlineLine, Entry.line, h]

mutual

theorem toList_outlineAt (depth : Nat) (node : Node) :
    (outlineAt depth node).toList = (entries depth node).flatMap fun e => e.line ++ ['\n'] := by
  cases node with
  | text content =>
    have hwords : ("Text<" ++ Text.quoted content ++ ">").toList =
        (Heading.text content).words := by
      simp [Heading.words, Heading.inner?, Heading.name]
    rw [outlineAt, toList_outlineLine hwords]
    simp [entries]
  | lookup path =>
    have hwords : ("Variable<" ++ path ++ ">").toList = (Heading.lookup path).words := by
      simp [Heading.words, Heading.inner?, Heading.path?, Heading.name]
    rw [outlineAt, toList_outlineLine hwords]
    simp [entries]
  | conditional condition thenArm elseArm =>
    have hwords : ("Conditional<" ++ condition ++ ">").toList =
        (Heading.conditional condition).words := by
      simp [Heading.words, Heading.inner?, Heading.path?, Heading.name]
    have helse : "else".toList = Heading.otherwise.words := rfl
    have hthenArm := toList_outlineAt (depth + 1) thenArm
    have helseArm := toList_outlineAt (depth + 1) elseArm
    simp [outlineAt, toList_outlineLine hwords, toList_outlineLine helse, hthenArm, helseArm,
      entries]
  | iteration source body separator =>
    have hwords : ("Iteration<" ++ source ++ ">").toList = (Heading.iteration source).words := by
      simp [Heading.words, Heading.inner?, Heading.path?, Heading.name]
    have hsep : "sep".toList = Heading.between.words := rfl
    have hbody := toList_outlineAt (depth + 1) body
    cases separator with
    | none => simp [outlineAt, toList_outlineLine hwords, hbody, entries, separatorEntries]
    | some between =>
      have hbetween := toList_outlineAt (depth + 1) between
      simp [outlineAt, toList_outlineLine hwords, toList_outlineLine hsep, hbody, hbetween,
        entries, separatorEntries]
  | sequence nodes =>
    have hwords : "Sequence".toList = Heading.sequence.words := rfl
    have hnodes := toList_outlineAll (depth + 1) nodes
    simp [outlineAt, toList_outlineLine hwords, hnodes, entries]

theorem toList_outlineAll (depth : Nat) (nodes : List Node) :
    (outlineAll depth nodes).toList =
      (entriesAll depth nodes).flatMap fun e => e.line ++ ['\n'] := by
  cases nodes with
  | nil => rfl
  | cons node rest =>
    rw [outlineAll, entriesAll, String.toList_append, List.flatMap_append,
      toList_outlineAt depth node, toList_outlineAll depth rest]

end

/-- The paths that lines name. -/
def named (lines : List Entry) : List String := lines.filterMap (·.heading.path?)

theorem named_cons (e : Entry) (lines : List Entry) :
    named (e :: lines) = e.heading.path?.toList ++ named lines := by
  rw [named, List.filterMap_cons]
  cases e.heading.path? <;> rfl

theorem named_append (xs ys : List Entry) : named (xs ++ ys) = named xs ++ named ys :=
  List.filterMap_append

mutual

theorem named_entries (depth : Nat) (node : Node) : named (entries depth node) = node.paths := by
  cases node with
  | text content => rfl
  | lookup path => rfl
  | conditional condition thenArm elseArm =>
    have hthen := named_entries (depth + 1) thenArm
    have helse := named_entries (depth + 1) elseArm
    simp [entries, paths, named_cons, named_append, Heading.path?, hthen, helse]
  | iteration source body separator =>
    have hbody := named_entries (depth + 1) body
    have hseparator := named_separatorEntries depth separator
    simp [entries, paths, named_cons, named_append, Heading.path?, hbody, hseparator]
  | sequence nodes =>
    have hnodes := named_entriesAll (depth + 1) nodes
    simp [entries, paths, named_cons, Heading.path?, hnodes]

theorem named_separatorEntries (depth : Nat) (separator : Option Node) :
    named (separatorEntries depth separator) = separatorPaths separator := by
  cases separator with
  | none => rfl
  | some between =>
    have hbetween := named_entries (depth + 1) between
    simp [separatorEntries, separatorPaths, named_cons, Heading.path?, hbetween]

theorem named_entriesAll (depth : Nat) (nodes : List Node) :
    named (entriesAll depth nodes) = pathsAll nodes := by
  cases nodes with
  | nil => rfl
  | cons node rest =>
    have hnode := named_entries depth node
    have hrest := named_entriesAll depth rest
    simp [entriesAll, pathsAll, named_append, hnode, hrest]

end

theorem oneLine_of_mem_entries {depth : Nat} {node : Node}
    (h : ∀ path ∈ node.paths, '\n' ∉ path.toList) : ∀ e ∈ entries depth node, e.OneLine := by
  intro e he path hpath
  refine h path ?_
  rw [← named_entries depth node]
  exact List.mem_filterMap.2 ⟨e, he, hpath⟩

/-- What may stand behind a node: lines that are no further in, and no separator. -/
def Follows (depth : Nat) (rest : List Entry) : Prop :=
  ∀ e ∈ rest.head?, e.depth ≤ depth ∧ e ≠ ⟨depth, .between⟩

theorem follows_nil (depth : Nat) : Follows depth [] := by
  intro e he
  cases he

theorem follows_cons_of_lt {depth : Nat} {e : Entry} (h : e.depth < depth) (rest : List Entry) :
    Follows depth (e :: rest) := by
  intro e he
  obtain rfl := Option.some.inj he
  refine ⟨Nat.le_of_lt h, ?_⟩
  rintro rfl
  exact absurd h (Nat.lt_irrefl _)

theorem Follows.deeper {depth : Nat} {rest : List Entry} (h : Follows depth rest) :
    Follows (depth + 1) rest := by
  cases rest with
  | nil => exact follows_nil _
  | cons e rest => exact follows_cons_of_lt (Nat.lt_succ_of_le (h e rfl).1) rest

theorem Follows.separator {depth : Nat} {rest : List Entry} (h : Follows depth rest)
    (separator : Option Node) : Follows (depth + 1) (separatorEntries depth separator ++ rest) := by
  cases separator with
  | none => exact h.deeper
  | some between => exact follows_cons_of_lt (Nat.lt_succ_self depth) _

/-- A node begins with a line of its own. -/
theorem entries_eq_cons (depth : Nat) (node : Node) :
    ∃ heading rest, entries depth node = ⟨depth, heading⟩ :: rest ∧ heading ≠ .between := by
  cases node <;> exact ⟨_, _, rfl, nofun⟩

theorem Follows.nodes {depth : Nat} {rest : List Entry} (h : Follows depth rest)
    (nodes : List Node) : Follows (depth + 1) (entriesAll (depth + 1) nodes ++ rest) := by
  cases nodes with
  | nil => exact h.deeper
  | cons node nodes =>
    obtain ⟨heading, tail, hentries, hheading⟩ := entries_eq_cons (depth + 1) node
    rw [entriesAll, hentries]
    intro e he
    obtain rfl := Option.some.inj he
    exact ⟨Nat.le_refl _, fun heq => hheading (Entry.mk.inj heq).2⟩

/-- No further node of a sequence stands behind it. -/
theorem Follows.ne_entries {depth : Nat} {rest : List Entry} (h : Follows depth rest) (node : Node)
    (tail : List Entry) : rest ≠ entries (depth + 1) node ++ tail := by
  rintro rfl
  obtain ⟨heading, below, hentries, -⟩ := entries_eq_cons (depth + 1) node
  rw [hentries] at h
  exact absurd (h _ rfl).1 (Nat.not_succ_le_self depth)

mutual

/-- Where a node ends can be told from what stands behind it, whatever that is. -/
theorem entries_append_inj {depth : Nat} {node other : Node} {r s : List Entry}
    (hr : Follows depth r) (hs : Follows depth s)
    (h : entries depth node ++ r = entries depth other ++ s) : node = other ∧ r = s := by
  cases node with
  | text content =>
    cases other with
    | text content' =>
      simp only [entries, List.cons_append, List.nil_append, List.cons.injEq, Entry.mk.injEq,
        Heading.text.injEq, true_and] at h
      exact ⟨congrArg text h.1, h.2⟩
    | _ => simp [entries] at h
  | lookup path =>
    cases other with
    | lookup path' =>
      simp only [entries, List.cons_append, List.nil_append, List.cons.injEq, Entry.mk.injEq,
        Heading.lookup.injEq, true_and] at h
      exact ⟨congrArg lookup h.1, h.2⟩
    | _ => simp [entries] at h
  | conditional condition thenArm elseArm =>
    cases other with
    | conditional condition' thenArm' elseArm' =>
      simp only [entries, List.cons_append, List.append_assoc, List.cons.injEq, Entry.mk.injEq,
        Heading.conditional.injEq, true_and] at h
      obtain ⟨rfl, harms⟩ := h
      have helse (arm : Node) (rest : List Entry) :
          Follows (depth + 1) (⟨depth, .otherwise⟩ :: (entries (depth + 1) arm ++ rest)) :=
        follows_cons_of_lt (Nat.lt_succ_self depth) _
      obtain ⟨rfl, hrest⟩ := entries_append_inj (helse elseArm r) (helse elseArm' s) harms
      obtain ⟨rfl, rfl⟩ := entries_append_inj hr.deeper hs.deeper (List.cons.inj hrest).2
      exact ⟨rfl, rfl⟩
    | _ => simp [entries] at h
  | iteration source body separator =>
    cases other with
    | iteration source' body' separator' =>
      simp only [entries, List.cons_append, List.append_assoc, List.cons.injEq, Entry.mk.injEq,
        Heading.iteration.injEq, true_and] at h
      obtain ⟨rfl, hbodies⟩ := h
      obtain ⟨rfl, hrest⟩ :=
        entries_append_inj (hr.separator separator) (hs.separator separator') hbodies
      obtain ⟨rfl, rfl⟩ := separatorEntries_append_inj hr hs hrest
      exact ⟨rfl, rfl⟩
    | _ => simp [entries] at h
  | sequence nodes =>
    cases other with
    | sequence nodes' =>
      simp only [entries, List.cons_append, List.cons.injEq, true_and] at h
      obtain ⟨rfl, rfl⟩ := entriesAll_append_inj hr hs h
      exact ⟨rfl, rfl⟩
    | _ => simp [entries] at h

theorem separatorEntries_append_inj {depth : Nat} {separator other : Option Node}
    {r s : List Entry} (hr : Follows depth r) (hs : Follows depth s)
    (h : separatorEntries depth separator ++ r = separatorEntries depth other ++ s) :
    separator = other ∧ r = s := by
  cases separator with
  | none =>
    cases other with
    | none => exact ⟨rfl, h⟩
    | some between =>
      obtain rfl : r = ⟨depth, .between⟩ :: (entries (depth + 1) between ++ s) := h
      exact absurd rfl (hr _ rfl).2
  | some between =>
    cases other with
    | none =>
      obtain rfl : ⟨depth, .between⟩ :: (entries (depth + 1) between ++ r) = s := h
      exact absurd rfl (hs _ rfl).2
    | some between' =>
      obtain ⟨rfl, rfl⟩ := entries_append_inj hr.deeper hs.deeper (List.cons.inj h).2
      exact ⟨rfl, rfl⟩

theorem entriesAll_append_inj {depth : Nat} {nodes others : List Node} {r s : List Entry}
    (hr : Follows depth r) (hs : Follows depth s)
    (h : entriesAll (depth + 1) nodes ++ r = entriesAll (depth + 1) others ++ s) :
    nodes = others ∧ r = s := by
  cases nodes with
  | nil =>
    cases others with
    | nil => exact ⟨rfl, h⟩
    | cons other others =>
      simp only [entriesAll, List.nil_append, List.append_assoc] at h
      exact absurd h (hr.ne_entries other _)
  | cons node nodes =>
    cases others with
    | nil =>
      simp only [entriesAll, List.nil_append, List.append_assoc] at h
      exact absurd h.symm (hs.ne_entries node _)
    | cons other others =>
      simp only [entriesAll, List.append_assoc] at h
      obtain ⟨rfl, hrest⟩ := entries_append_inj (hr.nodes nodes) (hs.nodes others) h
      obtain ⟨rfl, rfl⟩ := entriesAll_append_inj hr hs hrest
      exact ⟨rfl, rfl⟩

end

/-- The outline of a tree with no newline in its paths is that of no other such tree. -/
theorem outline_eq_iff {node other : Node} (hnode : ∀ path ∈ node.paths, '\n' ∉ path.toList)
    (hother : ∀ path ∈ other.paths, '\n' ∉ path.toList) :
    node.outline = other.outline ↔ node = other := by
  refine ⟨fun h => ?_, congrArg outline⟩
  have hlist := congrArg String.toList h
  rw [outline, outline, toList_outlineAt, toList_outlineAt] at hlist
  have hentries := Entry.prefixCode_line.flatMap_inj (oneLine_of_mem_entries hnode)
    (oneLine_of_mem_entries hother) hlist
  have hclosed := congrArg (· ++ []) hentries
  exact (entries_append_inj (follows_nil 0) (follows_nil 0) hclosed).1

/-- A text that stands in an else-arm or behind it: the outlines differ by four blanks. -/
theorem outline_eq_iff_elseArm :
    let node := sequence [conditional "a" (text "x") (sequence [text "y"])]
    let other := sequence [conditional "a" (text "x") (sequence []), text "y"]
    (∀ path ∈ node.paths, '\n' ∉ path.toList) ∧ (∀ path ∈ other.paths, '\n' ∉ path.toList) ∧
      (node.outline = other.outline ↔ node = other) ∧ node.outline ≠ other.outline := by
  intro node other
  have hnode : ∀ path ∈ node.paths, '\n' ∉ path.toList := by
    intro path hpath
    obtain rfl := List.mem_singleton.1 hpath
    decide
  have hother : ∀ path ∈ other.paths, '\n' ∉ path.toList := by
    intro path hpath
    obtain rfl := List.mem_singleton.1 hpath
    decide
  have hiff := outline_eq_iff hnode hother
  refine ⟨hnode, hother, hiff, ?_⟩
  rw [Ne, hiff]
  simp [node, other]

/-- With a newline in its path, one look-up can read like two. -/
example : (sequence [lookup "a>\n    Variable<b"]).outline =
    (sequence [lookup "a", lookup "b"]).outline := by rfl

end Node
end Stencil
