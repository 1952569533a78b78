import CompliancePrimitives.Indexer.Delivery

/-!
# The decoder undoes the encoding of an event

`KnownEvent` has the sixteen structures the decoder has a branch for, each published as its contract
publishes it. `decodeEvent_published` says that the row of such an event has everything the event
says, and nothing else: `KnownEvent.row` writes the fields of the event over the blank row.

The events `multisig-admin` publishes about its signers are not among them. The decoder has
branches for what they say, but under names that no contract publishes, and has no row for any of
them (`signerSetEvent_not_understood`).

What the row needs of the event is that its numbers are in range and its texts are legible
(`KnownEvent.InRange`): a text that starts with a byte order mark comes out without it. The columns
about where the event was found are the server's and are taken over as they are.
-/

namespace Indexer

open Encoding Soroban

/-! ### Sixteen structures -/

/-- The structures the decoder has a branch for. -/
inductive KnownEvent where
  | allowAdd (address : ScAddress)
  | allowRemove (address : ScAddress)
  | blocked (source target : ScAddress) (amount : ℤ)
  | denyAdd (address : ScAddress)
  | denyRemove (address : ScAddress)
  | jurisdictionSet (address : ScAddress) (code : String)
  | jurisdictionExpired (address : ScAddress)
  | jurisdictionRemoved (address : ScAddress)
  | frozen (caller : ScAddress)
  | unfrozen (admin : ScAddress)
  | adminSet (admin : ScAddress)
  | denylistGateSet (gate : ScAddress)
  | jurisdictionFlagSet (flag : ScAddress)
  | circuitBreakerSet (breaker : ScAddress)
  | policyResult (passed : Bool) (source target : ScAddress)
  | complianceEvent (kind : String) (subject source : ScAddress) (detail : String)

namespace KnownEvent

/-- What the contract publishes. -/
def published : KnownEvent → Published
  | .allowAdd address => (AllowlistToken.Event.allowAdd address).published
  | .allowRemove address => (AllowlistToken.Event.allowRemove address).published
  | .blocked source target amount => (AllowlistToken.Event.blocked source target amount).published
  | .denyAdd address => (DenylistGate.Event.denyAdd address).published
  | .denyRemove address => (DenylistGate.Event.denyRemove address).published
  | .jurisdictionSet address code =>
    (JurisdictionFlag.Event.jurisdictionSet address (utf8 code)).published
  | .jurisdictionExpired address => (JurisdictionFlag.Event.jurisdictionExpired address).published
  | .jurisdictionRemoved address => (JurisdictionFlag.Event.jurisdictionRemoved address).published
  | .frozen caller => (CircuitBreaker.Event.frozen caller).published
  | .unfrozen admin => (CircuitBreaker.Event.unfrozen admin).published
  | .adminSet admin => (ComplianceAggregator.Event.adminSet admin).published
  | .denylistGateSet gate => (ComplianceAggregator.Event.denylistGateSet gate).published
  | .jurisdictionFlagSet flag => (ComplianceAggregator.Event.jurisdictionFlagSet flag).published
  | .circuitBreakerSet breaker => (ComplianceAggregator.Event.circuitBreakerSet breaker).published
  | .policyResult passed source target =>
    (PolicyEngine.Event.policyResult passed source target).published
  | .complianceEvent kind subject source detail =>
    (AuditLog.ComplianceEvent.mk kind subject source (utf8 detail)).published

/-- The fields are of their types: an amount is a 128-bit number, and a text is one the indexer can
read as it is. -/
def InRange : KnownEvent → Prop
  | .blocked _ _ amount => -2 ^ 127 ≤ amount ∧ amount < 2 ^ 127
  | .jurisdictionSet _ code => Legible code
  | .complianceEvent kind _ _ detail => Legible kind ∧ Legible detail
  | _ => True

/-- **The row of an event**: its type, and every field of it. Of a freeze only the type is kept. -/
def row (raw : RawSorobanEvent) : KnownEvent → RawEvent
  | .allowAdd address => { blankRow raw "AllowAdd" with address := some (rendered address) }
  | .allowRemove address => { blankRow raw "AllowRemove" with address := some (rendered address) }
  | .blocked source target amount =>
    { blankRow raw "Blocked" with
      address := some (rendered source), addressTo := some (rendered target)
      amount := some (toString amount) }
  | .denyAdd address => { blankRow raw "DenyAdd" with address := some (rendered address) }
  | .denyRemove address => { blankRow raw "DenyRemove" with address := some (rendered address) }
  | .jurisdictionSet address code =>
    { blankRow raw "JurisdictionSet" with
      address := some (rendered address), jurisdiction := some code }
  | .jurisdictionExpired address =>
    { blankRow raw "JurisdictionExpired" with address := some (rendered address) }
  | .jurisdictionRemoved address =>
    { blankRow raw "JurisdictionRemoved" with address := some (rendered address) }
  | .frozen _ => blankRow raw "Frozen"
  | .unfrozen _ => blankRow raw "Unfrozen"
  | .adminSet admin => { blankRow raw "AdminSet" with address := some (rendered admin) }
  | .denylistGateSet gate =>
    { blankRow raw "DenylistGateSet" with address := some (rendered gate) }
  | .jurisdictionFlagSet flag =>
    { blankRow raw "JurisdictionFlagSet" with address := some (rendered flag) }
  | .circuitBreakerSet breaker =>
    { blankRow raw "CircuitBreakerSet" with address := some (rendered breaker) }
  | .policyResult passed source target =>
    { blankRow raw "PolicyResult" with
      policyFrom := some (rendered source), policyTo := some (rendered target)
      policyPassed := some passed }
  | .complianceEvent kind subject source detail =>
    { blankRow raw "ComplianceEvent" with
      address := some (rendered subject), kind := some kind, source := some (rendered source)
      detail := some detail }

end KnownEvent

section

variable {raw : RawSorobanEvent} {name : Symbol}

/-- A structure whose only field is an address, and a topic. -/
theorem decodeEvent_addressTopic {address : ScAddress}
    (h : Delivers raw (contractEvent name [.address address] [])) (hname : Legible name) :
    decodeEvent raw =
      decodeVals raw [.symbol name, .address (rendered address)] (.map []) :=
  decodeEvent_contractEvent h hname ⟨trivial, trivial⟩ (by decide) trivial

/-- **Decoding undoes encoding.** -/
theorem decodeEvent_published {e : KnownEvent} (he : e.InRange) (h : Delivers raw e.published) :
    decodeEvent raw = some (e.row raw) := by
  cases e with
  | allowAdd address => exact (decodeEvent_addressTopic h (by decide)).trans rfl
  | allowRemove address => exact (decodeEvent_addressTopic h (by decide)).trans rfl
  | blocked source target amount =>
    have hnames : LegibleNames ["amount"] := by decide
    exact (decodeEvent_contractEvent h (by decide) ⟨trivial, trivial, trivial⟩ hnames
      ⟨he, trivial⟩).trans rfl
  | denyAdd address => exact (decodeEvent_addressTopic h (by decide)).trans rfl
  | denyRemove address => exact (decodeEvent_addressTopic h (by decide)).trans rfl
  | jurisdictionSet address code =>
    -- a text is read back if it is legible
    have hcode : Legible code := he
    have hnames : LegibleNames ["code"] := by decide
    rw [decodeEvent_contractEvent h (by decide) ⟨trivial, trivial⟩ hnames ⟨hcode.2, trivial⟩,
      List.map_singleton, hcode.renderedVal_string]
    rfl
  | jurisdictionExpired address => exact (decodeEvent_addressTopic h (by decide)).trans rfl
  | jurisdictionRemoved address => exact (decodeEvent_addressTopic h (by decide)).trans rfl
  | frozen caller => exact (decodeEvent_addressTopic h (by decide)).trans rfl
  | unfrozen admin => exact (decodeEvent_addressTopic h (by decide)).trans rfl
  | adminSet admin => exact (decodeEvent_addressTopic h (by decide)).trans rfl
  | denylistGateSet gate => exact (decodeEvent_addressTopic h (by decide)).trans rfl
  | jurisdictionFlagSet flag => exact (decodeEvent_addressTopic h (by decide)).trans rfl
  | circuitBreakerSet breaker => exact (decodeEvent_addressTopic h (by decide)).trans rfl
  | policyResult passed source target =>
    have hnames : LegibleNames ["from", "to"] := by decide
    exact (decodeEvent_contractEvent h (by decide) ⟨trivial, trivial⟩ hnames
      ⟨trivial, trivial, trivial⟩).trans rfl
  | complianceEvent kind subject source detail =>
    obtain ⟨hkind, hdetail⟩ := he
    have hnames : LegibleNames ["detail", "source"] := by decide
    rw [decodeEvent_contractEvent h (by decide) ⟨hkind.2, trivial, trivial⟩ hnames
      ⟨hdetail.2, trivial, trivial⟩, List.map_cons, List.map_singleton, hdetail.renderedVal_string,
      renderedItems, hkind.renderedVal_symbol]
    rfl

end

/-- An account, for the examples. -/
def someAccount : ScAddress := .account (Vector.replicate 32 7)

/-- A contract, for the examples. -/
def someContract : ScAddress := .contract (Vector.replicate 32 7)

/-- A record about an account, with a text that has characters of two and three bytes. -/
theorem decodeEvent_published_record :
    decodeEvent (delivery "CAUDIT" 7
        (KnownEvent.complianceEvent "deny_add" someAccount someContract "§ 3, 10 €").published) =
      some (KnownEvent.row (delivery "CAUDIT" 7
        (KnownEvent.complianceEvent "deny_add" someAccount someContract "§ 3, 10 €").published)
        (.complianceEvent "deny_add" someAccount someContract "§ 3, 10 €")) :=
  decodeEvent_published ⟨by decide, by decide⟩ (delivers_delivery "CAUDIT" 7 _)

/-! ### The events of a signer set -/

/-- The events `multisig-admin` publishes for its signer set. -/
def IsSignerSetEvent : MultisigAdmin.Event ScAddress → Prop
  | .signerAdded _ | .signerRemoved _ | .thresholdSet _ | .authOk _ _ => True
  | _ => False

/-- Every field of the event is in the row. -/
def Recovers (row : RawEvent) : MultisigAdmin.Event ScAddress → Prop
  | .signerAdded signer | .signerRemoved signer => row.signerAddress = some (rendered signer)
  | .thresholdSet threshold => row.newThreshold = some threshold
  | .authOk validCount threshold =>
    row.validCount = some validCount ∧ row.newThreshold = some threshold
  | _ => True

/-- **The decoder understands an event**: it has a row for it, with all of its fields. -/
def Understood (raw : RawSorobanEvent) (e : MultisigAdmin.Event ScAddress) : Prop :=
  ∃ row, decodeEvent raw = some row ∧ Recovers row e

/-- The names of these events are not in the table of the decoder. -/
theorem decodeEvent_signerSetEvent {e : MultisigAdmin.Event ScAddress} {raw : RawSorobanEvent}
    (he : IsSignerSetEvent e) (h : Delivers raw e.published) : decodeEvent raw = none := by
  cases e with
  | signerAdded signer => exact decodeEvent_of_unknown h (by decide) (by decide)
  | signerRemoved signer => exact decodeEvent_of_unknown h (by decide) (by decide)
  | thresholdSet threshold => exact decodeEvent_of_unknown h (by decide) (by decide)
  | authOk validCount threshold => exact decodeEvent_of_unknown h (by decide) (by decide)
  | contractPausedEvent => exact he.elim
  | contractUnpausedEvent => exact he.elim
  | upgraded newWasmHash => exact he.elim
  | propExec proposalId => exact he.elim

/-- **No event of a signer set is understood**, whatever its fields are. -/
theorem signerSetEvent_not_understood (e : MultisigAdmin.Event ScAddress) (raw : RawSorobanEvent)
    (he : IsSignerSetEvent e) (h : Delivers raw e.published) : ¬Understood raw e := by
  rintro ⟨row, hrow, -⟩
  rw [decodeEvent_signerSetEvent he h] at hrow
  cases hrow

/-- Two valid signatures of the two that are needed, say. -/
theorem authOk_not_understood :
    ¬Understood (delivery "CMULTISIG" 7 (MultisigAdmin.Event.authOk 2 2).published)
      (.authOk 2 2) :=
  signerSetEvent_not_understood _ _ trivial (delivers_delivery "CMULTISIG" 7 _)

/-- The event of an added signer, as the contract publishes it, has no row. -/
theorem signerAdded_not_understood :
    IsSignerSetEvent (.signerAdded someAccount) ∧
      Delivers (delivery "CMULTISIG" 7 (MultisigAdmin.Event.signerAdded someAccount).published)
        (MultisigAdmin.Event.signerAdded someAccount).published ∧
      ¬Understood (delivery "CMULTISIG" 7 (MultisigAdmin.Event.signerAdded someAccount).published)
        (.signerAdded someAccount) := by
  refine ⟨trivial, delivers_delivery "CMULTISIG" 7 _, ?_⟩
  rintro ⟨row, hrow, -⟩
  rw [decodeEvent_signerSetEvent (e := .signerAdded someAccount) trivial
    (delivers_delivery "CMULTISIG" 7 _)] at hrow
  cases hrow

end Indexer
