import Stencil.Proofs.ReadBack

namespace Stencil

namespace Decimal.Literal

/-- The integer that a literal is written as. Zero below zero is none. -/
def integer? (x : Literal) : Option Int :=
  let n := Text.ofDigits 10 x.whole
  if x.isInteger then
    if x.negative then if n = 0 then none else some (-n) else some n
  else none

/-- How numbers are classified: integers by the first of two types that holds them, every other
    number by the nearest float. -/
inductive ReadsAs (x : Literal) : Value → Prop where
  | integer (n : Int64) (hn : x.integer? = some n.toInt) : ReadsAs x (.integer n)
  | unsigned (n : UInt64) (hn : x.integer? = some (n.toNat : Int))
      (hlarge : Int64.maxValue.toInt < n.toNat) : ReadsAs x (.unsigned n)
  | float (f : Float) (hf : x.toFloat? = some f)
      (hother : ∀ n, x.integer? = some n → n < Int64.minValue.toInt ∨ (UInt64.size : Int) ≤ n) :
      ReadsAs x (.float f)

theorem integer?_eq_some {x : Literal} {n : Int} :
    x.integer? = some n ↔ x.isInteger = true ∧
      (x.negative = false ∧ (Text.ofDigits 10 x.whole : Int) = n ∨
        x.negative = true ∧ 0 < Text.ofDigits 10 x.whole ∧ -(Text.ofDigits 10 x.whole : Int) = n) := by
  unfold integer?
  cases x.isInteger with
  | false => simp
  | true => cases x.negative <;> simp [Nat.pos_iff_ne_zero]

/-- A literal is an integer of one of the two types, or of neither. -/
theorem integer?_cases (x : Literal) :
    (∃ n : Int64, x.integer? = some n.toInt) ∨
      (∃ n : UInt64, x.integer? = some (n.toNat : Int) ∧ Int64.maxValue.toInt < n.toNat) ∨
        ∀ n, x.integer? = some n → n < Int64.minValue.toInt ∨ (UInt64.size : Int) ≤ n := by
  have hmin : Int64.minValue.toInt = -2 ^ 63 := rfl
  have hmax : Int64.maxValue.toInt = 2 ^ 63 - 1 := rfl
  cases h : x.integer? with
  | none => exact .inr (.inr fun n hn => nomatch hn)
  | some n =>
    by_cases hfits : -2 ^ 63 ≤ n ∧ n < 2 ^ 63
    · exact .inl ⟨Int64.ofInt n, by rw [Int64.toInt_ofInt_of_le hfits.1 hfits.2]⟩
    by_cases hlarge : 2 ^ 63 ≤ n ∧ n < UInt64.size
    · have hlt : n.toNat < UInt64.size := by omega
      have hto : ((UInt64.ofNat n.toNat).toNat : Int) = n := by
        rw [UInt64.toNat_ofNat_of_lt' hlt]
        omega
      exact .inr (.inl ⟨UInt64.ofNat n.toNat, by rw [hto], by omega⟩)
    · refine .inr (.inr ?_)
      intro m hm
      cases hm
      omega

end Decimal.Literal

namespace Json

open Decimal (Literal)

theorem ofLiteral?_of_natural {x : Literal} {n : UInt64} (h : x.integer? = some (n.toNat : Int)) :
    Number.ofLiteral? x = some (.natural n) := by
  obtain ⟨hinteger, ⟨hsign, hdigits⟩ | ⟨-, hpos, hdigits⟩⟩ := Literal.integer?_eq_some.1 h
  · have hdigits : Text.ofDigits 10 x.whole = n.toNat := Int.ofNat_inj.1 hdigits
    have hlt : n.toNat < UInt64.size := n.toNat_lt
    simp [Number.ofLiteral?, hinteger, hsign, hdigits, hlt]
  · omega

theorem ofLiteral?_of_negative {x : Literal} {n : Int64} (h : x.integer? = some n.toInt)
    (hn : n < 0) : Number.ofLiteral? x = some (.negative n) := by
  have hlt : n.toInt < 0 := Int64.lt_iff_toInt_lt.1 hn
  have hmin : Int64.minValue.toInt ≤ n.toInt := n.minValue_le_toInt
  obtain ⟨hinteger, ⟨-, hdigits⟩ | ⟨hsign, hpos, hdigits⟩⟩ := Literal.integer?_eq_some.1 h
  · omega
  · simp only [Number.ofLiteral?, hinteger, hsign, hdigits, hpos, hmin, Int64.ofInt_toInt]
    rfl

/-- What no integer type holds is a float. -/
theorem ofLiteral?_of_other {x : Literal}
    (h : ∀ n, x.integer? = some n → n < Int64.minValue.toInt ∨ (UInt64.size : Int) ≤ n) :
    Number.ofLiteral? x = x.toFloat?.map .real := by
  have hmin : Int64.minValue.toInt = -9223372036854775808 := rfl
  have hnatural : ¬ (x.isInteger && !x.negative &&
      decide (Text.ofDigits 10 x.whole < UInt64.size)) = true := by
    intro hcond
    simp only [Bool.and_eq_true, Bool.not_eq_true', decide_eq_true_eq] at hcond
    obtain ⟨⟨hinteger, hsign⟩, hlt⟩ := hcond
    have hsome := Literal.integer?_eq_some.2 ⟨hinteger, .inl ⟨hsign, rfl⟩⟩
    have hout := h _ hsome
    omega
  have hnegative : ¬ (x.isInteger && x.negative && decide (0 < Text.ofDigits 10 x.whole) &&
      decide (Int64.minValue.toInt ≤ -(Text.ofDigits 10 x.whole : Int))) = true := by
    intro hcond
    simp only [Bool.and_eq_true, decide_eq_true_eq] at hcond
    obtain ⟨⟨⟨hinteger, hsign⟩, hpos⟩, hle⟩ := hcond
    have hsome := Literal.integer?_eq_some.2 ⟨hinteger, .inr ⟨hsign, hpos, rfl⟩⟩
    have hout := h _ hsome
    omega
  rw [Number.ofLiteral?, if_neg hnatural, if_neg hnegative]

end Json

namespace Value

/-- The kinds of value in the order of their declaration, each with what it makes of a document. -/
def kinds : List (Json → Option Value) :=
  [ fun | .null => some null
        | _ => none,
    fun | .bool b => some (bool b)
        | _ => none,
    fun j => j.toInt64?.map integer,
    fun j => j.toUInt64?.map unsigned,
    fun j => j.toFloat?.map float,
    fun j => j.string?.map string,
    fun | .array items => (items.mapM ofJson?).map list
        | _ => none,
    fun | .object entries =>
          (entries.mapM fun e => (ofJson? e.2).map (e.1, ·)).map fun entries =>
            map (Map.ofList entries)
        | _ => none ]

theorem ofItems?_eq_mapM (items : List Json) : ofItems? items = items.mapM ofJson? := by
  induction items with
  | nil => rfl
  | cons j rest ih => rw [ofItems?, ih, List.mapM_cons]

theorem ofEntries?_eq_mapM (entries : List (String × Json)) :
    ofEntries? entries = entries.mapM fun e => (ofJson? e.2).map (e.1, ·) := by
  induction entries with
  | nil => rfl
  | cons e rest ih =>
    obtain ⟨key, j⟩ := e
    rw [ofEntries?, ih, List.mapM_cons]
    cases ofJson? j <;> rfl

/-- A document is taken by the first kind of value that takes it. -/
theorem ofJson?_eq_findSome? (j : Json) : ofJson? j = kinds.findSome? (· j) := by
  cases j with
  | number n =>
    cases n with
    | natural n =>
      rw [ofJson?]
      cases h : (Json.number (.natural n)).toInt64? with
      | none => simp [kinds, h, Json.toUInt64?]
      | some i => simp [kinds, h]
    | negative n => rfl
    | real x => rfl
  | array items =>
    rw [ofJson?, ofItems?_eq_mapM]
    cases h : items.mapM ofJson? with
    | none => simp [kinds, h, Json.toInt64?, Json.toUInt64?, Json.toFloat?, Json.string?]
    | some vs => simp [kinds, h, Json.toInt64?, Json.toUInt64?, Json.toFloat?, Json.string?]
  | object entries =>
    rw [ofJson?, ofEntries?_eq_mapM]
    simp [kinds, Json.toInt64?, Json.toUInt64?, Json.toFloat?, Json.string?]
  | _ => rfl

theorem ofJson?_number (n : Json.Number) : ofJson? (.number n) = some (ofNumber n) := by
  cases n with
  | natural n =>
    have hsmall : n < 0x8000000000000000 ↔ n.toNat < 0x8000000000000000 := UInt64.lt_iff_toNat_lt
    have hsigned : Int64.ofNat n.toNat = n.toInt64 := by
      rw [← UInt64.toInt64_ofNat', UInt64.ofNat_toNat]
    rw [ofJson?_natural, canon, ofNumber, hsigned]
    simp only [hsmall]
  | negative n => rfl
  | real x => rfl

/-- The value of a number as it is written. -/
def ofLiteral? (x : Decimal.Literal) : Option Value :=
  (Json.Number.ofLiteral? x).bind fun n => ofJson? (.number n)

theorem ofLiteral?_of_int64 {x : Decimal.Literal} {n : Int64} (h : x.integer? = some n.toInt) :
    ofLiteral? x = some (integer n) := by
  have hnumber : Json.Number.ofLiteral? x = some (numberOfInt64 n) := by
    unfold numberOfInt64
    split
    · rename_i hn
      exact Json.ofLiteral?_of_negative h hn
    · rename_i hn
      have hnonneg : 0 ≤ n := Int64.not_lt.1 hn
      have hto : (n.toUInt64.toNat : Int) = n.toInt := by
        rw [Int64.toNat_toUInt64_of_le hnonneg]
        exact Int.toNat_of_nonneg (Int64.le_iff_toInt_le.1 hnonneg)
      exact Json.ofLiteral?_of_natural (hto ▸ h)
  rw [ofLiteral?, hnumber, Option.bind_some, ofJson?_integer]

theorem ofLiteral?_of_uint64 {x : Decimal.Literal} {n : UInt64} (h : x.integer? = some (n.toNat : Int))
    (hlarge : Int64.maxValue.toInt < n.toNat) : ofLiteral? x = some (unsigned n) := by
  have hmax : Int64.maxValue.toInt = 2 ^ 63 - 1 := rfl
  have hn : ¬ n.toNat < 0x8000000000000000 := by omega
  rw [ofLiteral?, Json.ofLiteral?_of_natural h, Option.bind_some, ofJson?_natural, canon, if_neg hn]

theorem ofLiteral?_of_other {x : Decimal.Literal}
    (h : ∀ n, x.integer? = some n → n < Int64.minValue.toInt ∨ (UInt64.size : Int) ≤ n) :
    ofLiteral? x = x.toFloat?.map float := by
  rw [ofLiteral?, Json.ofLiteral?_of_other h]
  cases x.toFloat? <;> rfl

theorem ofLiteral?_eq_some {x : Decimal.Literal} {v : Value} :
    ofLiteral? x = some v ↔ x.ReadsAs v := by
  constructor
  · intro h
    rcases x.integer?_cases with ⟨n, hn⟩ | ⟨n, hn, hlarge⟩ | hother
    · rw [ofLiteral?_of_int64 hn] at h
      cases h
      exact .integer n hn
    · rw [ofLiteral?_of_uint64 hn hlarge] at h
      cases h
      exact .unsigned n hn hlarge
    · rw [ofLiteral?_of_other hother] at h
      obtain ⟨f, hf, rfl⟩ := Option.map_eq_some_iff.1 h
      exact .float f hf hother
  · intro h
    cases h with
    | integer n hn => exact ofLiteral?_of_int64 hn
    | unsigned n hn hlarge => exact ofLiteral?_of_uint64 hn hlarge
    | float f hf hother => rw [ofLiteral?_of_other hother, hf, Option.map_some]

/-- A document as a value by way of its settled form. -/
def convert (j : Json) : Value := ofSettled j.settle

theorem convert_array (items : List Json) : convert (.array items) = list (items.map convert) := by
  have hitems : ofSettledItems (Json.settleItems items) = items.map convert := by
    induction items with
    | nil => rfl
    | cons j rest ih => rw [Json.settleItems, ofSettledItems, ih, List.map_cons, convert]
  rw [convert, Json.settle, ofSettled, hitems]

theorem settleEntries_eq_mapValues (entries : List (String × Json)) :
    Json.settleEntries entries = Map.mapValues Json.settle entries := by
  induction entries with
  | nil => rfl
  | cons e rest ih => rw [Json.settleEntries, ih, Map.mapValues, Map.mapValues, List.map_cons]

theorem ofSettledEntries_eq_mapValues (entries : List (String × Json.Settled)) :
    ofSettledEntries entries = Map.mapValues ofSettled entries := by
  induction entries with
  | nil => rfl
  | cons e rest ih => rw [ofSettledEntries, ih, Map.mapValues, Map.mapValues, List.map_cons]

/-- It makes no difference that the entries have been put in order before they are converted. -/
theorem convert_object (entries : List (String × Json)) :
    convert (.object entries) = map (Map.mapValues convert (Map.ofList entries)) := by
  have hconvert : Map.mapValues ofSettled (Map.mapValues Json.settle (Map.ofList entries)) =
      Map.mapValues convert (Map.ofList entries) := List.map_map
  have hordered : Map.Ordered (Map.mapValues convert (Map.ofList entries)) :=
    Map.ordered_mapValues (Map.ordered_ofList entries)
  rw [convert, Json.settle, ofSettled, settleEntries_eq_mapValues, ofSettledEntries_eq_mapValues,
    ← Map.mapValues_ofList Json.settle, hconvert, Map.ofList_of_ordered hordered]

mutual

theorem ofJson?_eq_convert (j : Json) : ofJson? j = some (convert j) := by
  cases j with
  | number n => exact ofJson?_number n
  | array items => rw [ofJson?, ofItems?_eq_convert items, convert_array, Option.map_some]
  | object entries =>
    rw [ofJson?, ofEntries?_eq_convert entries, convert_object, Map.mapValues_ofList,
      Option.map_some]
  | _ => rfl

theorem ofItems?_eq_convert (items : List Json) : ofItems? items = some (items.map convert) := by
  cases items with
  | nil => rfl
  | cons j rest =>
    rw [ofItems?, ofJson?_eq_convert j, ofItems?_eq_convert rest]
    rfl

theorem ofEntries?_eq_convert (entries : List (String × Json)) :
    ofEntries? entries = some (Map.mapValues convert entries) := by
  cases entries with
  | nil => rfl
  | cons e rest =>
    obtain ⟨key, j⟩ := e
    rw [ofEntries?, ofJson?_eq_convert j, ofEntries?_eq_convert rest]
    rfl

end

/-- A document is read as what its settled form is converted to, by the first kind of value that takes
    it. Its numbers are classified as they are written, and of repeated keys the last one counts. -/
theorem conversions_agree :
    (∀ j : Json, ofJson? j = some (ofSettled j.settle) ∧ ofJson? j = kinds.findSome? (· j)) ∧
    (∀ (x : Decimal.Literal) (v : Value), ofLiteral? x = some v ↔ x.ReadsAs v) ∧
    ∀ entries : List (String × Json), ∃ m, ofJson? (.object entries) = some (map m) ∧
      Map.Ordered m ∧ ∀ key, Map.get? key m = (entries.reverse.lookup key).bind ofJson? := by
  refine ⟨?_, fun _ _ => ofLiteral?_eq_some, ?_⟩
  · intro j
    exact ⟨ofJson?_eq_convert j, ofJson?_eq_findSome? j⟩
  · intro entries
    refine ⟨Map.mapValues convert (Map.ofList entries), ?_, ?_, ?_⟩
    · rw [ofJson?_eq_convert, convert_object]
    · exact Map.ordered_mapValues (Map.ordered_ofList entries)
    · intro key
      rw [Map.get?_mapValues, Map.get?_ofList]
      cases entries.reverse.lookup key with
      | none => rfl
      | some j => exact (ofJson?_eq_convert j).symm

/-- The first integer that is too large for a signed one, under a key that is repeated. -/
example :
    ofJson? (.object [("n", .null), ("m", .array []), ("n", .number (.natural 9223372036854775808))]) =
      some (map [("m", list []), ("n", unsigned 9223372036854775808)]) := by
  rfl

example : ofLiteral? ⟨true, ['0'], none, none⟩ = some (float (-0.0)) := by
  rfl

end Value
end Stencil
