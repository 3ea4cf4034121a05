import Stencil.Json.OfValue
import Stencil.Proofs.Evaluation
import Stencil.Proofs.JsonText
import Stencil.Proofs.Maps

namespace Stencil

namespace Value
mutual

/-- A value with every unsigned number that fits a signed one made signed. -/
def canon : Value → Value
  | unsigned n => if n.toNat < 0x8000000000000000 then integer (Int64.ofNat n.toNat) else unsigned n
  | list items => list (canonItems items)
  | map entries => map (canonEntries entries)
  | v => v

def canonItems : List Value → List Value
  | [] => []
  | v :: rest => canon v :: canonItems rest

def canonEntries : List (String × Value) → List (String × Value)
  | [] => []
  | (key, v) :: rest => (key, canon v) :: canonEntries rest

end

mutual

/-- A value and all that is inside it, at every depth. -/
def parts : Value → List Value
  | list items => list items :: itemsParts items
  | map entries => map entries :: entriesParts entries
  | v => [v]

def itemsParts : List Value → List Value
  | [] => []
  | v :: rest => parts v ++ itemsParts rest

def entriesParts : List (String × Value) → List Value
  | [] => []
  | (_, v) :: rest => parts v ++ entriesParts rest

end

mutual

/-- How deep lists and maps are nested in a value. -/
def depth : Value → Nat
  | list items => itemsDepth items + 1
  | map entries => entriesDepth entries + 1
  | _ => 0

def itemsDepth : List Value → Nat
  | [] => 0
  | v :: rest => max (depth v) (itemsDepth rest)

def entriesDepth : List (String × Value) → Nat
  | [] => 0
  | (_, v) :: rest => max (depth v) (entriesDepth rest)

end

theorem canonItems_eq_map (items : List Value) : canonItems items = items.map canon := by
  induction items with
  | nil => rfl
  | cons v rest ih => rw [canonItems, ih, List.map_cons]

theorem canonEntries_eq_mapValues (entries : Data) :
    canonEntries entries = Map.mapValues canon entries := by
  induction entries with
  | nil => rfl
  | cons e rest ih => rw [canonEntries, ih, Map.mapValues, Map.mapValues, List.map_cons]

/-- Whether it fits a signed number decides what an unsigned one is read as. -/
theorem ofJson?_natural (n : UInt64) : ofJson? (.number (.natural n)) = some (unsigned n).canon := by
  have hmax : Int64.maxValue.toInt = 0x7FFFFFFFFFFFFFFF := rfl
  rw [ofJson?, canon, Json.toInt64?, hmax]
  by_cases h : n.toNat < 0x8000000000000000
  · have hle : (n.toNat : Int) ≤ 0x7FFFFFFFFFFFFFFF := by omega
    rw [if_pos h, if_pos hle, Int64.ofInt_eq_ofNat]
    rfl
  · have hle : ¬ (n.toNat : Int) ≤ 0x7FFFFFFFFFFFFFFF := by omega
    rw [if_neg h, if_neg hle]
    rfl

theorem ofJson?_integer (n : Int64) : ofJson? (.number (numberOfInt64 n)) = some (integer n) := by
  unfold numberOfInt64
  split
  · rfl
  · rename_i hn
    have hnonneg : 0 ≤ n := Int64.not_lt.1 hn
    have hto : n.toUInt64.toNat = n.toNatClampNeg := Int64.toNat_toUInt64_of_le hnonneg
    have hlt : n.toNatClampNeg < 0x8000000000000000 := n.toNatClampNeg_lt
    rw [ofJson?_natural, canon, hto, if_pos hlt, Int64.ofNat_toNatClampNeg n hnonneg]

mutual

theorem ofJson?_toJson (v : Value) (hordered : v.Ordered)
    (hfinite : ∀ x, float x ∈ v.parts → x.isFinite = true) : ofJson? v.toJson = some v.canon := by
  cases v with
  | null => rfl
  | bool b => rfl
  | integer n => exact ofJson?_integer n
  | unsigned n => rw [toJson, ofJson?_natural]
  | float x =>
    have hx : x.isFinite = true := hfinite x (by simp [parts])
    rw [toJson, if_pos hx]
    rfl
  | string s => rfl
  | list items =>
    have hitems := ofItems?_toJsonItems items hordered fun x hx => hfinite x (by simp [parts, hx])
    rw [toJson, ofJson?, hitems, canon, Option.map_some]
  | map entries =>
    have hentries := ofEntries?_toJsonEntries entries hordered.2
      fun x hx => hfinite x (by simp [parts, hx])
    -- the entries are put in one by one, and stay as they are because they come in order
    have hsorted : Map.Ordered (canonEntries entries) := by
      rw [canonEntries_eq_mapValues]
      exact Map.ordered_mapValues hordered.1
    rw [toJson, ofJson?, hentries, canon, Option.map_some, Map.ofList_of_ordered hsorted]

theorem ofItems?_toJsonItems (items : List Value) (hordered : ItemsOrdered items)
    (hfinite : ∀ x, float x ∈ itemsParts items → x.isFinite = true) :
    ofItems? (toJsonItems items) = some (canonItems items) := by
  cases items with
  | nil => rfl
  | cons v rest =>
    have hv := ofJson?_toJson v hordered.1 fun x hx => hfinite x (by simp [itemsParts, hx])
    have hrest := ofItems?_toJsonItems rest hordered.2
      fun x hx => hfinite x (by simp [itemsParts, hx])
    simp [toJsonItems, ofItems?, hv, hrest, canonItems]

theorem ofEntries?_toJsonEntries (entries : List (String × Value)) (hordered : EntriesOrdered entries)
    (hfinite : ∀ x, float x ∈ entriesParts entries → x.isFinite = true) :
    ofEntries? (toJsonEntries entries) = some (canonEntries entries) := by
  cases entries with
  | nil => rfl
  | cons e rest =>
    obtain ⟨key, v⟩ := e
    have hv := ofJson?_toJson v hordered.1 fun x hx => hfinite x (by simp [entriesParts, hx])
    have hrest := ofEntries?_toJsonEntries rest hordered.2
      fun x hx => hfinite x (by simp [entriesParts, hx])
    simp [toJsonEntries, ofEntries?, hv, hrest, canonEntries]

end

/-- The values that documents are read as: their maps are in order, and what is unsigned is too large
    for a signed number. -/
structure Canonical (v : Value) : Prop where
  ordered : v.Ordered
  large : ∀ n, unsigned n ∈ v.parts → 0x8000000000000000 ≤ n.toNat

theorem mem_itemsParts {x : Value} {items : List Value} :
    x ∈ itemsParts items ↔ ∃ v ∈ items, x ∈ v.parts := by
  induction items with
  | nil => simp [itemsParts]
  | cons v rest ih => simp [itemsParts, ih]

theorem mem_entriesParts {x : Value} {entries : List (String × Value)} :
    x ∈ entriesParts entries ↔ ∃ e ∈ entries, x ∈ e.2.parts := by
  induction entries with
  | nil => simp [entriesParts]
  | cons e rest ih =>
    obtain ⟨key, v⟩ := e
    simp [entriesParts, ih]

theorem canonical_list {items : List Value} (h : ∀ v ∈ items, v.Canonical) :
    (list items).Canonical := by
  refine ⟨itemsOrdered_iff.2 fun v hv => (h v hv).ordered, ?_⟩
  intro n hn
  have hitems : unsigned n ∈ itemsParts items := by simpa [parts] using hn
  obtain ⟨v, hv, hn⟩ := mem_itemsParts.1 hitems
  exact (h v hv).large n hn

theorem canonical_map {entries : Data} (hordered : Map.Ordered entries)
    (h : ∀ e ∈ entries, e.2.Canonical) : (map entries).Canonical := by
  refine ⟨⟨hordered, entriesOrdered_iff.2 fun e he => (h e he).ordered⟩, ?_⟩
  intro n hn
  have hentries : unsigned n ∈ entriesParts entries := by simpa [parts] using hn
  obtain ⟨e, he, hn⟩ := mem_entriesParts.1 hentries
  exact (h e he).large n hn

theorem canonical_of_number {number : Json.Number} {v : Value}
    (h : ofJson? (.number number) = some v) : v.Canonical := by
  cases number with
  | natural n =>
    rw [ofJson?_natural, canon] at h
    split at h
    · cases h
      exact ⟨trivial, by simp [parts]⟩
    · rename_i hn
      cases h
      refine ⟨trivial, ?_⟩
      intro m hm
      have heq : m = n := by simpa [parts] using hm
      exact heq ▸ Nat.not_lt.1 hn
  | negative n =>
    cases h
    exact ⟨trivial, by simp [parts]⟩
  | real x =>
    cases h
    exact ⟨trivial, by simp [parts]⟩

mutual

theorem canonical_of_ofJson? (j : Json) {v : Value} (h : ofJson? j = some v) : v.Canonical := by
  cases j with
  | number number => exact canonical_of_number h
  | array items =>
    obtain ⟨vs, hvs, rfl⟩ := Option.map_eq_some_iff.1 h
    exact canonical_list (canonical_of_ofItems? items hvs)
  | object entries =>
    obtain ⟨vs, hvs, rfl⟩ := Option.map_eq_some_iff.1 h
    have hcanonical := canonical_of_ofEntries? entries hvs
    exact canonical_map (Map.ordered_ofList vs) fun e he => hcanonical e (Map.ofList_subset vs he)
  | _ =>
    cases h
    exact ⟨trivial, by simp [parts]⟩

theorem canonical_of_ofItems? (items : List Json) {vs : List Value} (h : ofItems? items = some vs) :
    ∀ v ∈ vs, v.Canonical := by
  cases items with
  | nil =>
    cases h
    simp
  | cons j rest =>
    simp only [ofItems?, Option.bind_eq_bind, Option.bind_eq_some_iff] at h
    obtain ⟨v, hv, more, hmore, heq⟩ := h
    cases heq
    exact List.forall_mem_cons.2 ⟨canonical_of_ofJson? j hv, canonical_of_ofItems? rest hmore⟩

theorem canonical_of_ofEntries? (entries : List (String × Json)) {vs : List (String × Value)}
    (h : ofEntries? entries = some vs) : ∀ e ∈ vs, e.2.Canonical := by
  cases entries with
  | nil =>
    cases h
    simp
  | cons entry rest =>
    obtain ⟨key, j⟩ := entry
    simp only [ofEntries?, Option.bind_eq_bind, Option.bind_eq_some_iff] at h
    obtain ⟨v, hv, more, hmore, heq⟩ := h
    cases heq
    exact List.forall_mem_cons.2 ⟨canonical_of_ofJson? j hv, canonical_of_ofEntries? rest hmore⟩

end

theorem legible_numberOfInt64 (n : Int64) : (numberOfInt64 n).Legible := by
  unfold numberOfInt64
  split
  · rename_i hn
    exact Json.legible_negative hn
  · exact Json.legible_natural n.toUInt64

mutual

/-- The document of a value can be read from its text if the floats in it can. -/
theorem readable_toJson {room : Nat} (v : Value) (hdepth : v.depth ≤ room)
    (hfloats : ∀ x, float x ∈ v.parts → (Json.Number.real x).Legible) : v.toJson.Readable room := by
  cases v with
  | null => trivial
  | bool b => trivial
  | integer n => exact legible_numberOfInt64 n
  | unsigned n => exact Json.legible_natural n
  | float x =>
    rw [toJson]
    split
    · exact hfloats x (by simp [parts])
    · trivial
  | string s => trivial
  | list items =>
    cases room with
    | zero => simp [depth] at hdepth
    | succ room =>
      exact itemsReadable_toJsonItems items (Nat.le_of_succ_le_succ hdepth)
        fun x hx => hfloats x (by simp [parts, hx])
  | map entries =>
    cases room with
    | zero => simp [depth] at hdepth
    | succ room =>
      exact entriesReadable_toJsonEntries entries (Nat.le_of_succ_le_succ hdepth)
        fun x hx => hfloats x (by simp [parts, hx])

theorem itemsReadable_toJsonItems {room : Nat} (items : List Value) (hdepth : itemsDepth items ≤ room)
    (hfloats : ∀ x, float x ∈ itemsParts items → (Json.Number.real x).Legible) :
    Json.ItemsReadable room (toJsonItems items) := by
  cases items with
  | nil => trivial
  | cons v rest =>
    have hmax := Nat.max_le.1 hdepth
    exact ⟨readable_toJson v hmax.1 fun x hx => hfloats x (by simp [itemsParts, hx]),
      itemsReadable_toJsonItems rest hmax.2 fun x hx => hfloats x (by simp [itemsParts, hx])⟩

theorem entriesReadable_toJsonEntries {room : Nat} (entries : List (String × Value))
    (hdepth : entriesDepth entries ≤ room)
    (hfloats : ∀ x, float x ∈ entriesParts entries → (Json.Number.real x).Legible) :
    Json.EntriesReadable room (toJsonEntries entries) := by
  cases entries with
  | nil => trivial
  | cons e rest =>
    obtain ⟨key, v⟩ := e
    have hmax := Nat.max_le.1 hdepth
    exact ⟨readable_toJson v hmax.1 fun x hx => hfloats x (by simp [entriesParts, hx]),
      entriesReadable_toJsonEntries rest hmax.2 fun x hx => hfloats x (by simp [entriesParts, hx])⟩

end

mutual

theorem canon_eq_self (v : Value) (h : ∀ n, unsigned n ∈ v.parts → 0x8000000000000000 ≤ n.toNat) :
    v.canon = v := by
  cases v with
  | unsigned n =>
    have hn : 0x8000000000000000 ≤ n.toNat := h n (by simp [parts])
    rw [canon, if_neg (Nat.not_lt.2 hn)]
  | list items => rw [canon, canonItems_eq_self items fun n hn => h n (by simp [parts, hn])]
  | map entries => rw [canon, canonEntries_eq_self entries fun n hn => h n (by simp [parts, hn])]
  | _ => rfl

theorem canonItems_eq_self (items : List Value)
    (h : ∀ n, unsigned n ∈ itemsParts items → 0x8000000000000000 ≤ n.toNat) : canonItems items = items := by
  cases items with
  | nil => rfl
  | cons v rest =>
    rw [canonItems, canon_eq_self v fun n hn => h n (by simp [itemsParts, hn]),
      canonItems_eq_self rest fun n hn => h n (by simp [itemsParts, hn])]

theorem canonEntries_eq_self (entries : List (String × Value))
    (h : ∀ n, unsigned n ∈ entriesParts entries → 0x8000000000000000 ≤ n.toNat) :
    canonEntries entries = entries := by
  cases entries with
  | nil => rfl
  | cons e rest =>
    obtain ⟨key, v⟩ := e
    rw [canonEntries, canon_eq_self v fun n hn => h n (by simp [entriesParts, hn]),
      canonEntries_eq_self rest fun n hn => h n (by simp [entriesParts, hn])]

end

/-- What has been read is written and read back as it is. -/
theorem ofJson?_toJson_of_ofJson? {j : Json} {v : Value} (h : ofJson? j = some v)
    (hfinite : ∀ x, float x ∈ v.parts → x.isFinite = true) : ofJson? v.toJson = some v := by
  obtain ⟨hordered, hlarge⟩ := canonical_of_ofJson? j h
  rw [ofJson?_toJson v hordered hfinite, canon_eq_self v hlarge]

mutual

theorem text_canon (v : Value) : v.canon.text = v.text := by
  cases v with
  | unsigned n =>
    rw [canon]
    split
    · rename_i h
      rw [text, text, Int64.toInt_ofNat_of_lt h]
      rfl
    · rfl
  | list items => rw [canon, text, text, itemsText_canonItems items]
  | map entries => rw [canon, text, text]
  | _ => rfl

theorem itemsText_canonItems (items : List Value) :
    itemsText (canonItems items) = itemsText items := by
  cases items with
  | nil => rfl
  | cons v rest => rw [canonItems, itemsText, itemsText, text_canon v, itemsText_canonItems rest]

end

theorem entries_canon (v : Value) : v.canon.entries = Map.mapValues canon v.entries := by
  cases v with
  | unsigned n =>
    rw [canon]
    split
    · rfl
    · rfl
  | map entries => exact canonEntries_eq_mapValues entries
  | _ => rfl

theorem get?_canon (ks : List String) (v : Value) : v.canon.get? ks = (v.get? ks).map canon := by
  induction ks generalizing v with
  | nil => rfl
  | cons k ks ih =>
    rw [get?_cons, get?_cons, entries_canon, Map.get?_mapValues]
    cases Map.get? k v.entries with
    | none => rfl
    | some w => exact ih w

theorem canon_insert (ks : List String) (new v : Value) :
    (insert ks new v).canon = insert ks new.canon v.canon := by
  induction ks generalizing v with
  | nil => rfl
  | cons k ks ih =>
    rw [insert, insert, canon, canonEntries_eq_mapValues, entries_canon]
    refine congrArg map (Map.mapValues_alter ?_ k v.entries)
    intro old
    rw [ih]
    cases old <;> rfl

theorem textAt_canon (v : Value) (path : String) : v.canon.textAt path = v.textAt path := by
  rw [textAt, textAt, get?_canon]
  cases v.get? (segments path) with
  | none => rfl
  | some found => exact text_canon found

theorem canon_withElement (v : Value) (source : String) (x : Value) :
    (v.withElement source x).canon = v.canon.withElement source x.canon := by
  rw [withElement, withElement, insertPath, insertPath, insertPath, insertPath, canon_insert,
    canon_insert]

theorem elements_canon (v : Value) : v.canon.elements = v.elements.map canon := by
  cases v with
  | unsigned n =>
    have hself : (unsigned n).canon.elements = [(unsigned n).canon] := by
      rw [canon]
      split <;> rfl
    exact hself
  | list items => exact canonItems_eq_map items
  | _ => rfl

theorem copies_canon (v : Value) (source : String) :
    v.canon.copies source = (v.copies source).map canon := by
  have hfound : (v.canon.get? (segments source)).getD null =
      ((v.get? (segments source)).getD null).canon := by
    rw [get?_canon]
    cases v.get? (segments source) <;> rfl
  rw [copies, copies, hfound, elements_canon, List.map_map, List.map_map]
  refine List.map_congr_left fun x _ => ?_
  exact (canon_withElement v source x).symm

end Value

namespace Node
mutual

theorem eval_canon (v : Value) (node : Node) : node.eval v.canon = node.eval v := by
  cases node with
  | text content => rw [eval, eval]
  | lookup path => rw [eval, eval, v.textAt_canon]
  | conditional condition thenArm elseArm =>
    rw [eval, eval, v.textAt_canon, eval_canon v thenArm, eval_canon v elseArm]
  | iteration source body separator =>
    have hbody : (fun copy => eval copy body) ∘ Value.canon = fun copy => eval copy body :=
      funext fun copy => eval_canon copy body
    have hbetween : (fun copy => evalBetween copy separator) ∘ Value.canon =
        fun copy => evalBetween copy separator := funext fun copy => evalBetween_canon copy separator
    rw [eval, eval, v.copies_canon, writeCopies_map, hbody, hbetween]
  | sequence nodes => rw [eval, eval, evalAll_canon v nodes]

theorem evalBetween_canon (v : Value) (separator : Option Node) :
    evalBetween v.canon separator = evalBetween v separator := by
  cases separator with
  | none => rw [evalBetween, evalBetween]
  | some between => rw [evalBetween, evalBetween, eval_canon v between]

theorem evalAll_canon (v : Value) (nodes : List Node) : evalAll v.canon nodes = evalAll v nodes := by
  cases nodes with
  | nil => rw [evalAll, evalAll]
  | cons node rest => rw [evalAll, evalAll, eval_canon v node, evalAll_canon v rest]

end

theorem render_canon (node : Node) (data : Data) :
    node.render (.root (Value.canonEntries data)) = node.render (.root data) := by
  rw [render_eq_eval_copy, render_eq_eval_copy]
  exact eval_canon (.map data) node

end Node

/-- What a value is written as is read back as its canonical form, from the document and from the text
    of it, and no template tells the two apart. A value has its maps in order, and the text of a float
    is one that reads back to it. -/
theorem Value.reads_back_canonical :
    (∀ v : Value, v.Ordered → (∀ x, float x ∈ v.parts → x.isFinite = true) →
      ofJson? v.toJson = some v.canon ∧
      (v.depth ≤ Json.depthLimit → (∀ x, float x ∈ v.parts → (Json.Number.real x).Legible) →
        (Json.read v.toJson.compact).bind ofJson? = some v.canon) ∧
      ((∀ n, unsigned n ∈ v.parts → 0x8000000000000000 ≤ n.toNat) → v.canon = v)) ∧
    ∀ (node : Node) (data : Data),
      node.render (.root (canonEntries data)) = node.render (.root data) := by
  refine ⟨?_, Node.render_canon⟩
  intro v hordered hfinite
  have hread := ofJson?_toJson v hordered hfinite
  refine ⟨hread, ?_, canon_eq_self v⟩
  intro hdepth hfloats
  rw [Json.read_compact (readable_toJson v hdepth hfloats), Option.bind_some, hread]

/-- A small and a large unsigned number and a float: the small one is read back as a signed one. -/
theorem Value.reads_back_canonical_unsigned :
    let data : Data :=
      [("a", unsigned 5), ("b", list [unsigned 18446744073709551615, float 1.5, string "q\"\n"])]
    let node : Node := .iteration "b" (.lookup "b") (some (.lookup "a"))
    Ordered (map data) ∧
      (map data).canon = map [("a", integer 5),
        ("b", list [unsigned 18446744073709551615, float 1.5, string "q\"\n"])] ∧
      float 1.5 ∈ (map data).parts ∧ (1.5 : Float).isFinite = true ∧
      (Json.Number.real 1.5).Legible ∧
      (Json.read (map data).toJson.compact).bind ofJson? = some (map data).canon ∧
      node.render (.root (canonEntries data)) = node.render (.root data) := by
  intro data node
  have hordered : Ordered (map data) := by
    refine ⟨?_, trivial, ⟨trivial, trivial, trivial, trivial⟩, trivial⟩
    exact List.pairwise_pair.2 (by decide)
  have hfloat : float 1.5 ∈ (map data).parts := by simp [data, parts, entriesParts, itemsParts]
  have honly (x : Float) (hx : float x ∈ (map data).parts) : x = 1.5 := by
    simpa [data, parts, entriesParts, itemsParts] using hx
  have hfinite : (1.5 : Float).isFinite = true := by decide
  have hlegible : (Json.Number.real 1.5).Legible := by
    have hwrite : (Json.Number.real 1.5).write = "1.5" := by decide +kernel
    have hnumeric : "1.5".toList.all Json.numeric = true := rfl
    have hread : Json.readNumber "1.5".toList = some (.number (.real 1.5)) := rfl
    refine ⟨?_, ?_, ?_⟩
    · rw [hwrite]
      decide
    · rw [hwrite]
      exact List.all_eq_true.1 hnumeric
    · rw [hwrite]
      exact hread
  have hdepth : (map data).depth ≤ Json.depthLimit := by decide
  obtain ⟨hvalues, hnodes⟩ := reads_back_canonical
  obtain ⟨-, htext, -⟩ := hvalues (map data) hordered fun x hx => honly x hx ▸ hfinite
  exact ⟨hordered, rfl, hfloat, hfinite, hlegible, htext hdepth fun x hx => honly x hx ▸ hlegible,
    hnodes node data⟩

end Stencil
