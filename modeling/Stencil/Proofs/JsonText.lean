import Mathlib.Data.List.TakeWhile
import Stencil.Json.Reader
import Stencil.Json.Writer

namespace Stencil

namespace Text

theorem digit?_of_isDigit {c : Char} (h : c.isDigit = true) :
    digit? 10 c = some (c.toNat - '0'.toNat) := by
  have hlt : c.toNat - '0'.toNat < 10 := by
    have hbounds := Char.isDigit_iff_toNat.1 h
    simp at *
    omega
  rw [digit?, if_pos h]
  exact if_pos hlt

theorem ofDigits_eq_ofDigitChars {cs : List Char} (h : ∀ c ∈ cs, c.isDigit = true) :
    ofDigits 10 cs = Nat.ofDigitChars 10 cs 0 := by
  have run : ∀ (cs : List Char) (n : Nat), (∀ c ∈ cs, c.isDigit = true) →
      cs.foldl (fun n c => 10 * n + (digit? 10 c).getD 0) n = Nat.ofDigitChars 10 cs n := by
    intro cs
    induction cs with
    | nil => simp
    | cons c cs ih =>
      intro n h
      rw [List.foldl_cons, Nat.ofDigitChars_cons, digit?_of_isDigit (h c List.mem_cons_self)]
      exact ih _ fun d hd => h d (List.mem_cons_of_mem _ hd)
  exact run cs 0 h

theorem isDigit_toDigits {n : Nat} : ∀ c ∈ Nat.toDigits 10 n, c.isDigit = true :=
  fun _ hc => Nat.isDigit_of_mem_toDigits (by decide) (by decide) hc

theorem ofDigits_toDigits (n : Nat) : ofDigits 10 (Nat.toDigits 10 n) = n := by
  rw [ofDigits_eq_ofDigitChars isDigit_toDigits, Nat.ofDigitChars_ten_toDigits]

/-- No number but zero starts with one. -/
theorem head?_toDigits {n : Nat} (h : 0 < n) : (Nat.toDigits 10 n).head? ≠ some '0' := by
  induction n using Nat.strongRecOn with
  | ind n ih =>
    by_cases hn : n < 10
    · have hdigit : ∀ n < 10, 0 < n → n.digitChar ≠ '0' := by decide
      rw [Nat.toDigits_of_lt_base hn]
      simpa using hdigit n hn h
    · have hshorter := ih (n / 10) (by omega) (by omega)
      have hne : Nat.toDigits 10 (n / 10) ≠ [] := Nat.toDigits_ne_nil
      obtain ⟨first, others, hdigits⟩ := List.exists_cons_of_ne_nil hne
      rw [Nat.toDigits_of_base_le (by decide) (Nat.not_lt.1 hn)]
      rw [hdigits] at hshorter ⊢
      exact hshorter

end Text

namespace Json
open Text (hex)

theorem hexQuad?_control : ∀ n < 0x20,
    List.replicate (2 - (hex n).length) '0' ++ hex n = [(n / 16).digitChar, (n % 16).digitChar] ∧
      hexQuad? '0' '0' (n / 16).digitChar (n % 16).digitChar = some n := by
  decide

theorem readString_escape (c : Char) (rest : List Char) :
    readString (escape c ++ rest) = push c (readString rest) := by
  unfold escape
  split
  · rfl
  · rfl
  · rfl
  · rfl
  · rfl
  · rfl
  · rfl
  · rename_i hquote hbackslash _ _ _ _ _
    split
    · rename_i hcontrol
      obtain ⟨hdigits, hquad⟩ := hexQuad?_control c.toNat hcontrol
      have hlow : c.toNat < 0xD800 := by omega
      rw [List.append_assoc ['\\', 'u', '0', '0'], hdigits]
      simp [readString, hquad, hlow]
    · -- all that `readString` looks for at the front has been escaped
      rename_i hplain
      have hkept : ¬(c.toNat < 0x20 ∨ c = '\\') := by
        rintro (hcontrol | heq)
        · exact hplain hcontrol
        · exact hbackslash heq
      rw [List.cons_append, List.nil_append, readString.eq_def]
      split <;> rename_i heq <;> cases heq
      · exact absurd rfl hquote
      · exact absurd rfl hbackslash
      · exact absurd rfl hbackslash
      · exact if_neg hkept

theorem readString_flatMap_escape (cs rest : List Char) :
    readString (cs.flatMap escape ++ '"' :: rest) = some (cs, rest) := by
  induction cs with
  | nil => simp [readString]
  | cons c cs ih => rw [List.flatMap_cons, List.append_assoc, readString_escape, ih, push]

/-- A number whose text is read as that number, and at one go. -/
structure Number.Legible (n : Number) : Prop where
  nonempty : n.write.toList ≠ []
  numeric : ∀ c ∈ n.write.toList, numeric c = true
  reads : readNumber n.write.toList = some (number n)

theorem numeric_of_isDigit {c : Char} (h : c.isDigit = true) : numeric c = true := by
  simp [numeric, h]

theorem unsigned?_toDigits (negative : Bool) (n : Nat) :
    Decimal.Literal.unsigned? negative (Nat.toDigits 10 n) =
      some ⟨negative, Nat.toDigits 10 n, none, none⟩ := by
  have hall := Text.isDigit_toDigits (n := n)
  have hwhole : (Nat.toDigits 10 n).takeWhile Char.isDigit = Nat.toDigits 10 n :=
    List.takeWhile_eq_self_iff.2 hall
  have hrest : (Nat.toDigits 10 n).dropWhile Char.isDigit = [] := List.dropWhile_eq_nil_iff.2 hall
  have hlead : ((Nat.toDigits 10 n).head? == some '0' &&
      decide (1 < (Nat.toDigits 10 n).length)) = false := by
    rcases Nat.eq_zero_or_pos n with rfl | hpos
    · rfl
    · rw [beq_eq_false_iff_ne.2 (Text.head?_toDigits hpos), Bool.false_and]
  have hne : (Nat.toDigits 10 n).isEmpty = false := by
    rw [List.isEmpty_eq_false_iff]
    exact Nat.toDigits_ne_nil
  simp only [Decimal.Literal.unsigned?, hwhole, hrest, hne, hlead]
  rfl

theorem ofLiteral?_natural {n : Nat} (h : n < UInt64.size) :
    Number.ofLiteral? ⟨false, Nat.toDigits 10 n, none, none⟩ = some (.natural (UInt64.ofNat n)) := by
  simp [Number.ofLiteral?, Decimal.Literal.isInteger, Text.ofDigits_toDigits, h]

theorem ofLiteral?_negative {n : Nat} (hpos : 0 < n) (h : Int64.minValue.toInt ≤ -n) :
    Number.ofLiteral? ⟨true, Nat.toDigits 10 n, none, none⟩ =
      some (.negative (Int64.ofInt (-n))) := by
  simp only [Number.ofLiteral?, Decimal.Literal.isInteger, Text.ofDigits_toDigits, h, hpos]
  rfl

theorem legible_natural (n : UInt64) : (Number.natural n).Legible := by
  have htext : (Number.natural n).write.toList = Nat.toDigits 10 n.toNat := by
    rw [Number.write, Nat.toString_eq_repr, Nat.toList_repr]
  refine ⟨?_, ?_, ?_⟩
  · rw [htext]
    exact Nat.toDigits_ne_nil
  · rw [htext]
    exact fun c hc => numeric_of_isDigit (Text.isDigit_toDigits c hc)
  · have hread : ∀ cs, cs = Nat.toDigits 10 n.toNat → readNumber cs = some (number (.natural n)) := by
      intro cs hcs
      unfold readNumber
      split
      · have hmem : '-' ∈ Nat.toDigits 10 n.toNat := hcs ▸ List.mem_cons_self
        cases Text.isDigit_toDigits '-' hmem
      · have hlt : n.toNat < UInt64.size := n.toNat_lt
        simp only [hcs, unsigned?_toDigits, Option.bind_eq_bind, Option.bind_some,
          ofLiteral?_natural hlt, UInt64.ofNat_toNat]
        rfl
    exact hread _ htext

theorem legible_negative {n : Int64} (h : n < 0) : (Number.negative n).Legible := by
  have hneg : n.toInt < 0 := Int64.lt_iff_toInt_lt.1 h
  have hmin : Int64.minValue.toInt ≤ n.toInt := n.minValue_le_toInt
  obtain ⟨m, hm⟩ : ∃ m : Nat, n.toInt = -(m + 1) := ⟨(-n.toInt - 1).toNat, by omega⟩
  have htext : (Number.negative n).write.toList = '-' :: Nat.toDigits 10 (m + 1) := by
    have hstring : toString n.toInt = "-" ++ toString (m + 1) := by
      rw [hm]
      rfl
    rw [Number.write, hstring]
    simp
  refine ⟨?_, ?_, ?_⟩
  · simp [htext]
  · rw [htext]
    intro c hc
    rcases List.mem_cons.1 hc with rfl | hc
    · rfl
    · exact numeric_of_isDigit (Text.isDigit_toDigits c hc)
  · have hpos : 0 < m + 1 := Nat.succ_pos m
    have hfits : Int64.minValue.toInt ≤ -((m + 1 : Nat) : Int) := by
      push_cast
      omega
    have hn : Int64.ofInt (-((m + 1 : Nat) : Int)) = n := by
      rw [← Int64.ofInt_toInt n, hm]
      rfl
    rw [htext]
    simp only [readNumber, unsigned?_toDigits, Option.bind_eq_bind, Option.bind_some,
      ofLiteral?_negative hpos hfits, hn]
    rfl

/-- What a number or a word cannot go on with. -/
def Closes (rest : List Char) : Prop := ∀ c ∈ rest.head?, numeric c = false ∧ c.isAlpha = false

theorem takeWhile_eq_nil {p : Char → Bool} {rest : List Char} (h : ∀ c ∈ rest.head?, p c = false) :
    rest.takeWhile p = [] ∧ rest.dropWhile p = rest := by
  cases rest with
  | nil => exact ⟨rfl, rfl⟩
  | cons c rest =>
    have hc : p c = false := h c rfl
    simp [hc]

theorem symbols_number {n : Number} (hn : n.Legible) {rest : List Char} (h : Closes rest) :
    symbols (n.write.toList ++ rest) = (symbols rest).map (.scalar (number n) :: ·) := by
  obtain ⟨c, cs, hcs⟩ := List.exists_cons_of_ne_nil hn.nonempty
  have hall := hn.numeric
  have hread := hn.reads
  have hrest := takeWhile_eq_nil fun d hd => (h d hd).1
  have htake : (n.write.toList ++ rest).takeWhile numeric = n.write.toList := by
    rw [List.takeWhile_append_of_pos hall, hrest.1, List.append_nil]
  have hdrop : (n.write.toList ++ rest).dropWhile numeric = rest := by
    rw [List.dropWhile_append_of_pos hall, hrest.2]
  rw [hcs] at hall hread htake hdrop ⊢
  have hc : numeric c = true := hall c List.mem_cons_self
  have hne (d : Char) (hd : numeric d = false) : c ≠ d := by
    rintro rfl
    rw [hd] at hc
    cases hc
  rw [List.cons_append] at htake hdrop ⊢
  rw [symbols]
  simp only [hne ' ' rfl, hne '\n' rfl, hne '\r' rfl, hne '\t' rfl, hne '[' rfl, hne ']' rfl,
    hne '{' rfl, hne '}' rfl, hne ',' rfl, hne ':' rfl, hne '"' rfl, hc, htake, hdrop, hread, or_self,
    if_false, dif_pos]

theorem symbols_string (s : String) (rest : List Char) :
    symbols ((writeString s).toList ++ rest) = (symbols rest).map (.string s :: ·) := by
  have hread := readString_flatMap_escape s.toList rest
  have htext : (writeString s).toList ++ rest = '"' :: (s.toList.flatMap escape ++ '"' :: rest) := by
    simp [writeString]
  rw [htext, symbols]
  simp only [Char.reduceEq, or_self, if_false, if_true]
  split
  · rename_i heq
    cases hread.symm.trans heq
    rw [String.ofList_toList]
  · rename_i heq
    cases hread.symm.trans heq

/-- The symbols that are one character each. -/
def mark? : Char → Option Symbol
  | '[' => some .openArray
  | ']' => some .closeArray
  | '{' => some .openObject
  | '}' => some .closeObject
  | ',' => some .comma
  | ':' => some .colon
  | _ => none

theorem symbols_mark (c : Char) (symbol : Symbol) (h : mark? c = some symbol) (rest : List Char) :
    symbols (c :: rest) = (symbols rest).map (symbol :: ·) := by
  unfold mark? at h
  split at h <;> cases h <;>
  · rw [symbols]
    simp

theorem symbols_word {c : Char} {cs : List Char} {j : Json}
    (hword : (c :: cs).all Char.isAlpha = true) (hc : numeric c = false)
    (hread : readWord (c :: cs) = some j) {rest : List Char} (h : Closes rest) :
    symbols (c :: cs ++ rest) = (symbols rest).map (.scalar j :: ·) := by
  have hall := List.all_eq_true.1 hword
  have hrest := takeWhile_eq_nil fun d hd => (h d hd).2
  have htake : (c :: cs ++ rest).takeWhile Char.isAlpha = c :: cs := by
    rw [List.takeWhile_append_of_pos hall, hrest.1, List.append_nil]
  have hdrop : (c :: cs ++ rest).dropWhile Char.isAlpha = rest := by
    rw [List.dropWhile_append_of_pos hall, hrest.2]
  have halpha : c.isAlpha = true := hall c List.mem_cons_self
  have hne (d : Char) (hd : d.isAlpha = false) : c ≠ d := by
    rintro rfl
    rw [hd] at halpha
    cases halpha
  rw [List.cons_append] at htake hdrop ⊢
  rw [symbols]
  simp only [hne ' ' rfl, hne '\n' rfl, hne '\r' rfl, hne '\t' rfl, hne '[' rfl, hne ']' rfl,
    hne '{' rfl, hne '}' rfl, hne ',' rfl, hne ':' rfl, hne '"' rfl, hc, halpha, htake, hdrop, hread,
    or_self, if_false, dif_pos, Bool.false_eq_true, dif_neg, not_false_eq_true]

mutual

/-- The symbols that a document is written with. -/
def toSymbols : Json → List Symbol
  | string s => [.string s]
  | array [] => [.openArray, .closeArray]
  | array (item :: more) => .openArray :: (toSymbols item ++ (moreItems more ++ [.closeArray]))
  | object [] => [.openObject, .closeObject]
  | object ((key, value) :: more) =>
    .openObject :: .string key :: .colon :: (toSymbols value ++ (moreEntries more ++ [.closeObject]))
  | j => [.scalar j]

/-- What follows the first item of an array. -/
def moreItems : List Json → List Symbol
  | [] => []
  | item :: more => .comma :: (toSymbols item ++ moreItems more)

def moreEntries : List (String × Json) → List Symbol
  | [] => []
  | (key, value) :: more => .comma :: .string key :: .colon :: (toSymbols value ++ moreEntries more)

end

/-- What stands between the brackets of an array. -/
def symbolsOfItems : List Json → List Symbol
  | [] => []
  | item :: more => item.toSymbols ++ moreItems more

def symbolsOfEntries : List (String × Json) → List Symbol
  | [] => []
  | (key, value) :: more => .string key :: .colon :: (value.toSymbols ++ moreEntries more)

theorem toSymbols_array (items : List Json) :
    (array items).toSymbols = .openArray :: (symbolsOfItems items ++ [.closeArray]) := by
  cases items <;> simp [toSymbols, symbolsOfItems]

theorem toSymbols_object (entries : List (String × Json)) :
    (object entries).toSymbols = .openObject :: (symbolsOfEntries entries ++ [.closeObject]) := by
  cases entries <;> simp [toSymbols, symbolsOfEntries]

mutual

/-- Documents that can be read where so many more containers may be opened. -/
def Readable (room : Nat) : Json → Prop
  | number n => n.Legible
  | array items =>
    match room with
    | 0 => False
    | room + 1 => ItemsReadable room items
  | object entries =>
    match room with
    | 0 => False
    | room + 1 => EntriesReadable room entries
  | _ => True

def ItemsReadable (room : Nat) : List Json → Prop
  | [] => True
  | item :: rest => Readable room item ∧ ItemsReadable room rest

def EntriesReadable (room : Nat) : List (String × Json) → Prop
  | [] => True
  | (_, value) :: rest => Readable room value ∧ EntriesReadable room rest

end

theorem itemsReadable_of_forall {room : Nat} {items : List Json} (h : ∀ j ∈ items, j.Readable room) :
    ItemsReadable room items := by
  induction items with
  | nil => trivial
  | cons item items ih =>
    obtain ⟨hitem, hitems⟩ := List.forall_mem_cons.1 h
    exact ⟨hitem, ih hitems⟩

theorem readable_ofInt {n : Int} (h : Int64.minValue.toInt ≤ n) (room : Nat) :
    (ofInt n).Readable room := by
  unfold ofInt
  split
  · rename_i hn
    have hto : (Int64.ofInt n).toInt = n := Int64.toInt_ofInt_of_le h (by omega)
    refine legible_negative (Int64.lt_iff_toInt_lt.2 ?_)
    rw [hto]
    exact hn
  · exact legible_natural _

theorem closes_cons {c : Char} (hnumeric : numeric c = false) (halpha : c.isAlpha = false)
    (rest : List Char) : Closes (c :: rest) := by
  intro d hd
  cases hd
  exact ⟨hnumeric, halpha⟩

/-- Blanks between the parts of a document are passed over. -/
theorem symbols_blanks {blanks : List Char} (h : ∀ c ∈ blanks, c = ' ' ∨ c = '\n')
    (rest : List Char) : symbols (blanks ++ rest) = symbols rest := by
  induction blanks with
  | nil => rfl
  | cons c blanks ih =>
    have hc : c = ' ' ∨ c = '\n' := h c List.mem_cons_self
    have hrest := ih fun d hd => h d (List.mem_cons_of_mem _ hd)
    rw [List.cons_append, symbols]
    rcases hc with rfl | rfl
    · rw [if_pos (.inl rfl), hrest]
    · rw [if_pos (.inr (.inl rfl)), hrest]

theorem closes_blanks {blanks rest : List Char} (h : ∀ c ∈ blanks, c = ' ' ∨ c = '\n')
    (hrest : Closes rest) : Closes (blanks ++ rest) := by
  cases blanks with
  | nil => exact hrest
  | cons c blanks =>
    rcases h c List.mem_cons_self with rfl | rfl
    · exact closes_cons rfl rfl _
    · exact closes_cons rfl rfl _

theorem symbols_key (spacing : Spacing) (depth : Nat) (key : String) (rest : List Char) :
    symbols ((spacing.line depth).toList ++
        ((writeString key).toList ++ ':' :: (spacing.colon.toList ++ rest))) =
      (symbols rest).map fun symbols => .string key :: .colon :: symbols := by
  rw [symbols_blanks (spacing.blank_line depth), symbols_string, symbols_mark ':' .colon rfl,
    symbols_blanks spacing.blank_colon, Option.map_map]
  rfl

mutual

theorem symbols_write (spacing : Spacing) (depth : Nat) {room : Nat} (j : Json)
    (hj : j.Readable room) {rest : List Char} (h : Closes rest) :
    symbols ((j.write spacing depth).toList ++ rest) = (symbols rest).map (j.toSymbols ++ ·) := by
  cases j with
  | null =>
    rw [write]
    exact symbols_word rfl rfl rfl h
  | bool b =>
    rw [write]
    cases b with
    | false => exact symbols_word rfl rfl rfl h
    | true => exact symbols_word rfl rfl rfl h
  | number n => exact symbols_number hj h
  | string s => exact symbols_string s rest
  | array items =>
    cases room with
    | zero => cases hj
    | succ room =>
      have hblank := spacing.blank_closing depth items.isEmpty
      have hclose := closes_blanks hblank (closes_cons (c := ']') rfl rfl rest)
      have hitems := symbols_writeItems spacing (depth + 1) items hj hclose
      have htext : ((array items).write spacing depth).toList ++ rest =
          '[' :: ((writeItems spacing (depth + 1) items).toList ++
            ((spacing.closing depth items.isEmpty).toList ++ ']' :: rest)) := by
        simp [write]
      rw [htext, symbols_mark '[' .openArray rfl, hitems, symbols_blanks hblank,
        symbols_mark ']' .closeArray rfl]
      simp [toSymbols_array, Function.comp_def]
  | object entries =>
    cases room with
    | zero => cases hj
    | succ room =>
      have hblank := spacing.blank_closing depth entries.isEmpty
      have hclose := closes_blanks hblank (closes_cons (c := '}') rfl rfl rest)
      have hentries := symbols_writeEntries spacing (depth + 1) entries hj hclose
      have htext : ((object entries).write spacing depth).toList ++ rest =
          '{' :: ((writeEntries spacing (depth + 1) entries).toList ++
            ((spacing.closing depth entries.isEmpty).toList ++ '}' :: rest)) := by
        simp [write]
      rw [htext, symbols_mark '{' .openObject rfl, hentries, symbols_blanks hblank,
        symbols_mark '}' .closeObject rfl]
      simp [toSymbols_object, Function.comp_def]

theorem symbols_writeItems (spacing : Spacing) (depth : Nat) {room : Nat} (items : List Json)
    (hitems : ItemsReadable room items) {rest : List Char} (h : Closes rest) :
    symbols ((writeItems spacing depth items).toList ++ rest) =
      (symbols rest).map (symbolsOfItems items ++ ·) := by
  cases items with
  | nil => simp [writeItems, symbolsOfItems]
  | cons item more =>
    cases more with
    | nil =>
      rw [writeItems, String.toList_append, List.append_assoc,
        symbols_blanks (spacing.blank_line depth), symbols_write spacing depth item hitems.1 h]
      simp [symbolsOfItems, moreItems]
    | cons next more =>
      have hmore := symbols_writeItems spacing depth (next :: more) hitems.2 h
      have hcomma := closes_cons (c := ',') rfl rfl
        ((writeItems spacing depth (next :: more)).toList ++ rest)
      have htext : (writeItems spacing depth (item :: next :: more)).toList ++ rest =
          (spacing.line depth).toList ++ ((item.write spacing depth).toList ++
            ',' :: ((writeItems spacing depth (next :: more)).toList ++ rest)) := by
        simp [writeItems]
      rw [htext, symbols_blanks (spacing.blank_line depth),
        symbols_write spacing depth item hitems.1 hcomma, symbols_mark ',' .comma rfl, hmore]
      simp [symbolsOfItems, moreItems, Function.comp_def]

theorem symbols_writeEntries (spacing : Spacing) (depth : Nat) {room : Nat}
    (entries : List (String × Json)) (hentries : EntriesReadable room entries) {rest : List Char}
    (h : Closes rest) :
    symbols ((writeEntries spacing depth entries).toList ++ rest) =
      (symbols rest).map (symbolsOfEntries entries ++ ·) := by
  cases entries with
  | nil => simp [writeEntries, symbolsOfEntries]
  | cons entry more =>
    obtain ⟨key, value⟩ := entry
    cases more with
    | nil =>
      have htext : (writeEntries spacing depth [(key, value)]).toList ++ rest =
          (spacing.line depth).toList ++ ((writeString key).toList ++
            ':' :: (spacing.colon.toList ++ ((value.write spacing depth).toList ++ rest))) := by
        simp [writeEntries]
      rw [htext, symbols_key, symbols_write spacing depth value hentries.1 h]
      simp [symbolsOfEntries, moreEntries, Function.comp_def]
    | cons next more =>
      have hmore := symbols_writeEntries spacing depth (next :: more) hentries.2 h
      have hcomma := closes_cons (c := ',') rfl rfl
        ((writeEntries spacing depth (next :: more)).toList ++ rest)
      have htext : (writeEntries spacing depth ((key, value) :: next :: more)).toList ++ rest =
          (spacing.line depth).toList ++ ((writeString key).toList ++
            ':' :: (spacing.colon.toList ++ ((value.write spacing depth).toList ++
              ',' :: ((writeEntries spacing depth (next :: more)).toList ++ rest)))) := by
        simp [writeEntries]
      rw [htext, symbols_key, symbols_write spacing depth value hentries.1 hcomma,
        symbols_mark ',' .comma rfl, hmore]
      simp [symbolsOfEntries, moreEntries, Function.comp_def]

end

/-- No document starts with what closes an array. -/
theorem toSymbols_head (j : Json) :
    ∃ symbol rest, j.toSymbols = symbol :: rest ∧ symbol ≠ .closeArray := by
  cases j with
  | array items => cases items <;> exact ⟨_, _, by rw [toSymbols], by simp⟩
  | object entries => cases entries <;> exact ⟨_, _, by rw [toSymbols], by simp⟩
  | string s => exact ⟨_, _, by rw [toSymbols], by simp⟩
  | _ => exact ⟨_, _, rfl, by simp⟩

mutual

theorem readValue_toSymbols {room : Nat} (j : Json) (hj : j.Readable room) (stack : List Frame)
    (h : stack.length + room ≤ depthLimit) (rest : List Symbol) :
    readValue stack (j.toSymbols ++ rest) = readNext stack j rest := by
  cases j with
  | array items =>
    cases room with
    | zero => cases hj
    | succ room =>
      have hopen : ¬ depthLimit ≤ stack.length := by omega
      cases items with
      | nil => simp [toSymbols, readValue, hopen]
      | cons item more =>
        have hinside : stack.length + 1 + room ≤ depthLimit := by omega
        -- an array that is not empty opens a frame, as no item starts like the end of an array
        have hitem := readValue_toSymbols item hj.1 (.array [] :: stack) hinside
          (moreItems more ++ .closeArray :: rest)
        have hmore := readNext_moreItems more hj.2 hinside [] item rest
        obtain ⟨symbol, others, hsymbols, hne⟩ := item.toSymbols_head
        rw [List.reverse_nil, List.nil_append] at hmore
        rw [← hmore, ← hitem, toSymbols, hsymbols]
        simp [readValue, hopen, hne]
  | object entries =>
    cases room with
    | zero => cases hj
    | succ room =>
      have hopen : ¬ depthLimit ≤ stack.length := by omega
      cases entries with
      | nil => simp [toSymbols, readValue, hopen]
      | cons entry more =>
        obtain ⟨key, value⟩ := entry
        have hinside : stack.length + 1 + room ≤ depthLimit := by omega
        have hvalue := readValue_toSymbols value hj.1 (.object [] key :: stack) hinside
          (moreEntries more ++ .closeObject :: rest)
        have hmore := readNext_moreEntries more hj.2 hinside [] key value rest
        rw [List.reverse_nil, List.nil_append] at hmore
        rw [← hmore, ← hvalue, toSymbols]
        simp [readValue, hopen]
  | _ => rfl

theorem readNext_moreItems {room : Nat} (more : List Json) (hmore : ItemsReadable room more)
    {stack : List Frame} (h : stack.length + 1 + room ≤ depthLimit) (done : List Json) (item : Json)
    (rest : List Symbol) :
    readNext (.array done :: stack) item (moreItems more ++ .closeArray :: rest) =
      readNext stack (array (done.reverse ++ item :: more)) rest := by
  cases more with
  | nil => simp [moreItems, readNext]
  | cons next more =>
    have hnext := readValue_toSymbols next hmore.1 (.array (item :: done) :: stack) h
      (moreItems more ++ .closeArray :: rest)
    have hothers := readNext_moreItems more hmore.2 h (item :: done) next rest
    rw [moreItems, List.cons_append, List.append_assoc, readNext, hnext, hothers, List.reverse_cons,
      List.append_assoc, List.singleton_append]

theorem readNext_moreEntries {room : Nat} (more : List (String × Json))
    (hmore : EntriesReadable room more) {stack : List Frame}
    (h : stack.length + 1 + room ≤ depthLimit) (done : List (String × Json)) (key : String)
    (value : Json) (rest : List Symbol) :
    readNext (.object done key :: stack) value (moreEntries more ++ .closeObject :: rest) =
      readNext stack (object (done.reverse ++ (key, value) :: more)) rest := by
  cases more with
  | nil => simp [moreEntries, readNext]
  | cons entry more =>
    obtain ⟨next, after⟩ := entry
    have hnext := readValue_toSymbols after hmore.1 (.object ((key, value) :: done) next :: stack) h
      (moreEntries more ++ .closeObject :: rest)
    have hothers := readNext_moreEntries more hmore.2 h ((key, value) :: done) next after rest
    rw [moreEntries, List.cons_append, List.cons_append, List.cons_append, List.append_assoc,
      readNext, hnext, hothers, List.reverse_cons, List.append_assoc, List.singleton_append]

end

/-- A document that is not nested too deep is read back from its text, whatever blanks are put
    between its parts and behind it. -/
theorem read_write (spacing : Spacing) {j : Json} (h : j.Readable depthLimit) (behind : String)
    (hblank : ∀ c ∈ behind.toList, c = ' ' ∨ c = '\n') :
    read (j.write spacing 0 ++ behind) = some j := by
  have hend : symbols behind.toList = some [] := by
    have hnil : symbols [] = some [] := by rw [symbols]
    rw [← List.append_nil behind.toList, symbols_blanks hblank, hnil]
  have hclosed : Closes behind.toList := by
    have hnil : Closes [] := by simp [Closes]
    simpa using closes_blanks hblank hnil
  have hsymbols := symbols_write spacing 0 j h hclosed
  have hread := readValue_toSymbols j h [] (by simp) []
  rw [List.append_nil] at hread
  simp [read, hsymbols, hend, hread, readNext]

theorem read_compact {j : Json} (h : j.Readable depthLimit) : read j.compact = some j := by
  have hread := read_write .none h "" nofun
  rwa [String.append_empty] at hread

end Json
end Stencil
