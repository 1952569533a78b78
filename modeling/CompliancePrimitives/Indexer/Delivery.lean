import CompliancePrimitives.Contracts.Events
import CompliancePrimitives.Indexer.RoundTrip

/-!
# Published events, as they reach the decoder

The RPC server delivers a published event with its topics and its data as base64 XDR, together with
where it was found. `Delivers` is that relation; what the server says beside it is left open.

If topics and data are readable, decoding is a matter of the values (`decodeEvent_of_readable`). If
some of them are not, the first topic still says what the row is, if there is one: an event with an
unknown name has none (`decodeEvent_of_unknown`), whatever its other topics and its data are.

`DeliversAt` adds the ledger the event was published in, which is all a run of polls asks of the
server's word. A text is `Legible` if the indexer reads it as it is; the names of structures and of
their fields are, and what else a contract publishes may not be.
-/

namespace Indexer

open Encoding Soroban

/-- **The server delivers a published event.** -/
structure Delivers (raw : RawSorobanEvent) (e : Published) : Prop where
  /-- Each topic is delivered as the base64 text of its XDR, -/
  topic_eq : raw.topic = e.topics.map fun v ↦ base64Encode v.xdr
  /-- and so is the data. -/
  value_eq : raw.value = base64Encode e.data.xdr

/-- The server delivers an event, with the ledger it was published in. -/
structure DeliversAt {ε : Type} (published : ε → Published) (raw : RawSorobanEvent)
    (e : ε × ℕ) : Prop where
  /-- The topics and the data are those of the event. -/
  delivers : Delivers raw (published e.1)
  /-- The ledger is the one it was published in. -/
  ledger_eq : raw.ledger = e.2

/-- An event as it is delivered: published by a contract, in a ledger. -/
def delivery (contractId : String) (ledger : ℕ) (e : Published) : RawSorobanEvent where
  ledger := ledger
  ledgerClosedAt := none
  contractId := contractId
  pagingToken := 0
  topic := e.topics.map fun v ↦ base64Encode v.xdr
  value := base64Encode e.data.xdr

theorem delivers_delivery (contractId : String) (ledger : ℕ) (e : Published) :
    Delivers (delivery contractId ledger e) e := ⟨rfl, rfl⟩

/-- **A text the indexer can read as it is**: without a leading byte order mark, and not too long
for XDR. -/
def Legible (s : String) : Prop := Unmarked s ∧ (utf8 s).length < 2 ^ 32

instance (s : String) : Decidable (Legible s) := inferInstanceAs (Decidable (_ ∧ _))

/-- The names of the fields of a structure: they can be read, and are distinct. -/
def LegibleNames (names : List Symbol) : Prop :=
  names.length < 2 ^ 32 ∧ names.Nodup ∧ ∀ name ∈ names, Legible name

instance (names : List Symbol) : Decidable (LegibleNames names) :=
  inferInstanceAs (Decidable (_ ∧ _ ∧ _))

section

variable {raw : RawSorobanEvent} {e : Published} {name : Symbol} {topics : List Val} {data : Val}
  {row : RawEvent}

theorem Legible.renderedVal_symbol (h : Legible name) :
    renderedVal (.symbol name) = .symbol name := by
  rw [renderedVal, textDecode_utf8 h.1]

theorem Legible.renderedVal_string (h : Legible name) :
    renderedVal (.string (utf8 name)) = .string name := by
  rw [renderedVal, textDecode_utf8 h.1]

/-- Readable topics are parsed one by one. -/
theorem mapM_decodeText (h : ReadableItems topics) :
    (topics.map fun v ↦ base64Encode v.xdr).mapM decodeText = some (renderedItems topics) := by
  induction topics with
  | nil => rfl
  | cons v topics ih =>
    rw [List.map_cons, List.mapM_cons, decodeText_xdr h.1, ih h.2]
    rfl

/-- **Decoding a readable event** is a matter of its values. -/
theorem decodeEvent_of_readable (h : Delivers raw e) (hne : e.topics ≠ [])
    (htopics : ReadableItems e.topics) (hdata : Readable e.data) :
    decodeEvent raw = decodeVals raw (renderedItems e.topics) (renderedVal e.data) := by
  have htopic : raw.topic.isEmpty = false := by
    rw [h.topic_eq, List.isEmpty_map]
    exact List.isEmpty_eq_false_iff.2 hne
  rw [decodeEvent, htopic, h.topic_eq, mapM_decodeText htopics, h.value_eq,
    base64Encode_xdr_ne_empty, decodeText_xdr hdata]
  rfl

theorem renderedEntries_fields {fields : List (Symbol × Val)}
    (h : LegibleNames (fields.map Prod.fst)) :
    renderedEntries (fields.map fun field ↦ (.symbol field.1, field.2)) =
      fields.map fun field ↦ (field.1, renderedVal field.2) := by
  have hlegible := h.2.2
  clear h
  induction fields with
  | nil => rfl
  | cons field fields ih =>
    obtain ⟨hfield, hfields⟩ := List.forall_mem_cons.1 hlegible
    rw [List.map_cons, renderedEntries, ih hfields, keyText, textDecode_utf8 hfield.1,
      List.map_cons]

theorem readableEntries_fields {fields : List (Symbol × Val)}
    (hlegible : ∀ name ∈ fields.map Prod.fst, Legible name)
    (hread : ReadableItems (fields.map Prod.snd)) :
    ReadableEntries (fields.map fun field ↦ (.symbol field.1, field.2)) := by
  induction fields with
  | nil => trivial
  | cons field fields ih =>
    obtain ⟨hfield, hfields⟩ := List.forall_mem_cons.1 hlegible
    exact ⟨hfield.2, hread.1, ih hfields hread.2⟩

/-- The data of a structure. -/
theorem readable_fields {fields : List (Symbol × Val)} (h : LegibleNames (fields.map Prod.fst))
    (hread : ReadableItems (fields.map Prod.snd)) :
    Readable (.map (fields.map fun field ↦ (.symbol field.1, field.2))) := by
  have hlength := h.1
  rw [List.length_map] at hlength
  have hkeys : (fields.map fun field ↦ (MapKey.symbol field.1, field.2)).map
      (fun entry ↦ keyText entry.1) = fields.map Prod.fst := by
    rw [List.map_map]
    exact List.map_congr_left fun field hfield ↦
      textDecode_utf8 (h.2.2 field.1 (List.mem_map_of_mem hfield)).1
  refine ⟨by rwa [List.length_map], ?_, readableEntries_fields h.2.2 hread⟩
  rw [hkeys]
  exact h.2.1

/-- **Decoding the event of a structure** whose fields are readable. -/
theorem decodeEvent_contractEvent {fields : List (Symbol × Val)}
    (h : Delivers raw (contractEvent name topics fields)) (hname : Legible name)
    (htopics : ReadableItems topics) (hnames : LegibleNames (fields.map Prod.fst))
    (hread : ReadableItems (fields.map Prod.snd)) :
    decodeEvent raw = decodeVals raw (.symbol name :: renderedItems topics)
      (.map (fields.map fun field ↦ (field.1, renderedVal field.2))) := by
  rw [decodeEvent_of_readable h (List.cons_ne_nil _ _) ⟨hname.2, htopics⟩
    (readable_fields hnames hread)]
  rw [contractEvent, renderedItems, hname.renderedVal_symbol, renderedVal,
    renderedEntries_fields hnames]

/-- **Any row of an event is of the type its name says**, and the name is one the indexer knows. -/
theorem rowOf_of_delivers (h : Delivers raw ⟨.symbol name :: topics, data⟩) (hname : Legible name)
    (hrow : decodeEvent raw = some row) : IsKnown name ∧ RowOf raw (rowType name) row := by
  obtain ⟨name', rest, htopics, hknown, hof⟩ := decodeEvent_rowOf hrow
  rw [h.topic_eq, List.map_cons, List.mapM_cons, decodeText_xdr (v := .symbol name) hname.2,
    hname.renderedVal_symbol] at htopics
  obtain ⟨_, hfirst, hothers⟩ := Option.bind_eq_some_iff.1 htopics
  obtain ⟨others, -, hcons⟩ := Option.bind_eq_some_iff.1 hothers
  cases hfirst
  have hsame : name = name' := ScVal.symbol.inj (List.cons.inj (Option.some.inj hcons)).1
  rw [hsame]
  exact ⟨hknown, hof⟩

/-- **An event with an unknown name has no row.** -/
theorem decodeEvent_of_unknown (h : Delivers raw ⟨.symbol name :: topics, data⟩)
    (hname : Legible name) (hunknown : ¬IsKnown name) : decodeEvent raw = none := by
  rcases hrow : decodeEvent raw with _ | row
  · rfl
  · exact absurd (rowOf_of_delivers h hname hrow).1 hunknown

end

end Indexer
