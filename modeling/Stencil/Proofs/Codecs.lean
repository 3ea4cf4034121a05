import Mathlib.Logic.Function.Defs
import Stencil.Json.OfDiagnosis
import Stencil.Json.OfError
import Stencil.Json.OfNode
import Stencil.Json.OfOptions
import Stencil.Json.OfToken
import Stencil.Proofs.JsonText

namespace Stencil

namespace Json

variable {α : Type}

/-- What is written is read back as it was. -/
def RoundTrips (write : α → Json) (read? : Json → Option α) : Prop := ∀ x, read? (write x) = some x

theorem RoundTrips.injective {write : α → Json} {read? : Json → Option α}
    (h : RoundTrips write read?) : Function.Injective write := by
  intro x y hxy
  have hread : some x = some y := by rw [← h x, ← h y, hxy]
  exact Option.some.inj hread

theorem int?_ofInt {n low high : Int} (hlow : low ≤ n) (hhigh : n ≤ high) (hmin : -0x8000000000000000 ≤ n)
    (hmax : n < 0x10000000000000000) : (ofInt n).int? low high = some n := by
  unfold ofInt
  split
  · have hto : (Int64.ofInt n).toInt = n := Int64.toInt_ofInt_of_le hmin (by omega)
    simp only [int?, hto]
    rw [if_pos ⟨hlow, hhigh⟩]
  · have hto : ((UInt64.ofNat n.toNat).toNat : Int) = n := by
      rw [UInt64.toNat_ofNat_of_lt' (by simp only [UInt64.size]; omega)]
      omega
    simp only [int?, hto]
    rw [if_pos ⟨hlow, hhigh⟩]

theorem ofInt_ne_null (n : Int) : ofInt n ≠ null := by
  unfold ofInt
  split <;> simp

theorem char?_singleton (c : Char) : (string (String.singleton c)).char? = some c := by
  simp [char?]

theorem count?_ofInt (n : UInt32) : (ofInt n.toNat).count? = some n := by
  have hn := n.toNat_lt
  rw [count?, int?_ofInt (by omega) (by omega) (by omega) (by omega)]
  simp

end Json

namespace Node

/-- A separator that is there is told from one that is not. -/
theorem toJson_ne_null (node : Node) : node.toJson ≠ .null := by
  cases node with
  | iteration source body separator => cases separator <;> simp [toJson, Json.tagged]
  | _ => simp [toJson, Json.tagged]

mutual

theorem ofJson?_toJson (node : Node) : ofJson? node.toJson = some node := by
  cases node with
  | text content => simp [toJson, Json.tagged, ofJson?, ofTagged?]
  | lookup path => simp [toJson, Json.tagged, ofJson?, ofTagged?]
  | conditional condition thenArm elseArm =>
    have hthen := ofJson?_toJson thenArm
    have helse := ofJson?_toJson elseArm
    simp [toJson, Json.tagged, ofJson?, ofTagged?, fieldNodes, Json.required, Json.string?, hthen,
      helse]
  | iteration source body separator =>
    have hbody := ofJson?_toJson body
    cases separator with
    | none =>
      simp [toJson, Json.tagged, ofJson?, ofTagged?, fieldNodes, Json.required, Json.optional,
        Json.string?, hbody]
    | some between =>
      have hbetween := ofJson?_toJson between
      simp [toJson, Json.tagged, ofJson?, ofTagged?, fieldNodes, Json.required, Json.optional,
        Json.string?, hbody, hbetween, between.toJson_ne_null]
  | sequence nodes =>
    simp [toJson, Json.tagged, ofJson?, ofTagged?, ofJsonAll?_toJsonAll nodes]

theorem ofJsonAll?_toJsonAll (nodes : List Node) : ofJsonAll? (toJsonAll nodes) = some nodes := by
  cases nodes with
  | nil => rfl
  | cons node rest =>
    have hnode := ofJson?_toJson node
    have hrest := ofJsonAll?_toJsonAll rest
    simp [toJsonAll, ofJsonAll?, hnode, hrest]

end

end Node

theorem Token.ofJson?_toJson (t : Token) : ofJson? t.toJson = some t := by
  cases t <;> rfl

theorem LexicalError.ofJson?_toJson (e : LexicalError) : ofJson? e.toJson = some e := by
  cases e with
  | unterminatedDirective terminator =>
    simp [toJson, Json.tagged, ofJson?, Json.fields?, Json.required, Json.char?_singleton]

theorem ParseError.ofJson?_toJson (e : ParseError) : ofJson? e.toJson = some e := by
  cases e <;> rfl

theorem ContextError.ofJson?_toJson (e : ContextError) : ofJson? e.toJson = some e := by
  cases e <;> rfl

theorem TemplateError.ofJson?_toJson (e : TemplateError) : ofJson? e.toJson = some e := by
  cases e with
  | lexical e => simp [toJson, Json.tagged, ofJson?, e.ofJson?_toJson]
  | parse e => simp [toJson, Json.tagged, ofJson?, e.ofJson?_toJson]
  | context e => simp [toJson, Json.tagged, ofJson?, e.ofJson?_toJson]

theorem Options.ofJson?_toJson (o : Options) : ofJson? o.toJson = some o := by
  simp [toJson, ofJson?, Json.optional, Json.char?_singleton]

theorem Position.ofJson?_toJson (p : Position) : ofJson? p.toJson = some p := by
  simp [toJson, ofJson?, Json.fields?, Json.required, Json.count?_ofInt]

theorem Range.ofJson?_toJson (r : Range) : ofJson? r.toJson = some r := by
  simp [toJson, ofJson?, Json.fields?, Json.required, Position.ofJson?_toJson]

theorem Diagnosis.severity?_ofInt (n : Int32) : severity? (.ofInt n.toInt) = some n := by
  have hlow := n.minValue_le_toInt
  have hhigh := n.toInt_le
  have hmin := n.le_toInt
  have hmax := n.toInt_lt
  rw [severity?, Json.int?_ofInt hlow hhigh (by omega) (by omega)]
  simp

theorem Diagnosis.ofJson?_toJson (d : Diagnosis) : ofJson? d.toJson = some d := by
  obtain ⟨range, severity, message⟩ := d
  have hrange := range.ofJson?_toJson
  cases severity with
  | none => simp [toJson, ofJson?, Json.fields?, Json.required, Json.optional, Json.string?, hrange]
  | some n =>
    have hseverity := severity?_ofInt n
    simp [toJson, ofJson?, Json.fields?, Json.required, Json.optional, Json.string?, hrange,
      hseverity, Json.ofInt_ne_null n.toInt]

theorem Position.readable_toJson (p : Position) (room : Nat) : p.toJson.Readable (room + 1) := by
  have hcount (n : UInt32) : (Json.ofInt n.toNat).Readable room := by
    refine Json.readable_ofInt ?_ room
    have hmin : Int64.minValue.toInt ≤ 0 := by decide
    omega
  exact ⟨hcount p.line, hcount p.character, trivial⟩

theorem Diagnosis.readable_toJson (d : Diagnosis) (room : Nat) : d.toJson.Readable (room + 3) := by
  obtain ⟨⟨start, stop⟩, severity, message⟩ := d
  have hstart := start.readable_toJson room
  have hstop := stop.readable_toJson room
  cases severity with
  | none => exact ⟨⟨hstart, hstop, trivial⟩, trivial, trivial⟩
  | some n =>
    have hseverity : (Json.ofInt n.toInt).Readable (room + 2) := by
      refine Json.readable_ofInt ?_ _
      have hlow := n.minValue_le_toInt
      have hmin : Int64.minValue.toInt ≤ Int32.minValue.toInt := by decide
      omega
    exact ⟨⟨hstart, hstop, trivial⟩, hseverity, trivial, trivial⟩

/-- What is printed for diagnoses is read back. -/
theorem Diagnosis.read_pretty (ds : List Diagnosis) :
    Json.read ((Json.array (ds.map toJson)).pretty ++ "\n") = some (.array (ds.map toJson)) := by
  have hreadable : (Json.array (ds.map toJson)).Readable Json.depthLimit := by
    refine Json.itemsReadable_of_forall fun j hj => ?_
    obtain ⟨d, -, rfl⟩ := List.mem_map.1 hj
    exact d.readable_toJson _
  exact Json.read_write .lines hreadable "\n" fun c hc => .inr (List.mem_singleton.1 hc)

/-- Every document is read back as what it was written from, so different values have different
    documents. -/
theorem Json.documents_roundTrip :
    (RoundTrips Node.toJson Node.ofJson? ∧ Function.Injective Node.toJson) ∧
    (RoundTrips Token.toJson Token.ofJson? ∧ Function.Injective Token.toJson) ∧
    (RoundTrips TemplateError.toJson TemplateError.ofJson? ∧
      Function.Injective TemplateError.toJson) ∧
    (RoundTrips Options.toJson Options.ofJson? ∧ Function.Injective Options.toJson) ∧
    RoundTrips Diagnosis.toJson Diagnosis.ofJson? ∧ Function.Injective Diagnosis.toJson := by
  have hnode : RoundTrips Node.toJson Node.ofJson? := Node.ofJson?_toJson
  have htoken : RoundTrips Token.toJson Token.ofJson? := Token.ofJson?_toJson
  have herror : RoundTrips TemplateError.toJson TemplateError.ofJson? := TemplateError.ofJson?_toJson
  have hoptions : RoundTrips Options.toJson Options.ofJson? := Options.ofJson?_toJson
  have hdiagnosis : RoundTrips Diagnosis.toJson Diagnosis.ofJson? := Diagnosis.ofJson?_toJson
  exact ⟨⟨hnode, hnode.injective⟩, ⟨htoken, htoken.injective⟩, ⟨herror, herror.injective⟩,
    ⟨hoptions, hoptions.injective⟩, hdiagnosis, hdiagnosis.injective⟩

end Stencil
