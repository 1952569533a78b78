import CompliancePrimitives.Contracts.AllowlistToken.Delegation
import CompliancePrimitives.Host.StrKey

/-!
# `allowlist-token`: what a delegated signature is for

The delegated key signs a text of several fields with a colon between any two of them. Addresses
and decimal numbers contain no colon, so the text can be taken apart again, and the bytes that are
verified for one address, nonce and expiry were never signed for others
(`delegatedActionMessage_unambiguous`).

Two assumptions are named there: a rendered address contains no colon, and different addresses are
rendered differently. StrKeys have both properties, so for addresses as Stellar renders them nothing
is assumed (`delegatedActionMessage_unambiguous_strKey`). The action is part of the text as well,
but there is only one, so it does not tell payloads apart.
-/

namespace AllowlistToken

open Soroban

/-! ### Texts of several fields -/

/-- The first field ends at the first separator. -/
theorem eq_of_separated {α : Type} {sep : α} {field field' rest rest' : List α}
    (hfield : sep ∉ field) (hfield' : sep ∉ field')
    (h : field ++ sep :: rest = field' ++ sep :: rest') : field = field' ∧ rest = rest' := by
  rcases List.append_eq_append_iff.1 h with ⟨mid, rfl, hrest⟩ | ⟨mid, rfl, hrest⟩
  · cases mid with
    | nil => exact ⟨(List.append_nil _).symm, (List.cons.inj hrest).2⟩
    | cons c mid =>
      rw [(List.cons.inj hrest).1] at hfield'
      exact absurd (List.mem_append_right _ List.mem_cons_self) hfield'
  · cases mid with
    | nil => exact ⟨List.append_nil _, (List.cons.inj hrest).2.symm⟩
    | cons c mid =>
      rw [(List.cons.inj hrest).1] at hfield
      exact absurd (List.mem_append_right _ List.mem_cons_self) hfield

/-- A number is written without colons. -/
theorem colon_notMem_toString (n : ℕ) : ':' ∉ (toString n).toList := by
  intro hmem
  have hdigit : ':'.isDigit = true := by
    refine Nat.isDigit_of_mem_toDigits (by norm_num) le_rfl (n := n) ?_
    rwa [← Nat.toList_repr]
  exact absurd hdigit (by decide)

theorem bytesOf_append (str str' : String) :
    bytesOf (str ++ str') = bytesOf str ++ bytesOf str' := by
  simp [bytesOf]

theorem bytesOf_inj {str str' : String} (h : bytesOf str = bytesOf str') : str = str' := by
  rw [bytesOf, bytesOf, Array.toList_inj] at h
  exact String.toByteArray_inj.1 (ByteArray.ext h)

/-! ### The message -/

variable {Address : Type} {ext : Externals Address} {target target' : Address}
  {action action' : Symbol} {nonce nonce' expiry expiry' : ℕ}

/-- The message as one text. -/
theorem delegatedActionMessage_eq (target : Address) (action : Symbol) (nonce expiry : ℕ) :
    delegatedActionMessage ext target action nonce expiry =
      bytesOf (String.ofList ("allowlist-delegated-v1:".toList ++
        ((ext.addressString target).toList ++ ':' :: (action.toList ++ ':' ::
          ((toString nonce).toList ++ ':' :: (toString expiry).toList))))) := by
  rw [delegatedActionMessage]
  simp only [← bytesOf_append]
  refine congrArg bytesOf (String.toList_inj.1 ?_)
  simp

/-- **The message determines its fields**, up to the action. -/
theorem delegatedActionMessage_inj (hstring : Function.Injective ext.addressString)
    (hcolon : ∀ a, ':' ∉ (ext.addressString a).toList)
    (haction : action = action' ∨ ':' ∉ action.toList ∧ ':' ∉ action'.toList)
    (h : delegatedActionMessage ext target action nonce expiry =
      delegatedActionMessage ext target' action' nonce' expiry') :
    target = target' ∧ action = action' ∧ nonce = nonce' ∧ expiry = expiry' := by
  rw [delegatedActionMessage_eq, delegatedActionMessage_eq] at h
  have htext := List.append_cancel_left (String.ofList_inj.1 (bytesOf_inj h))
  obtain ⟨htarget, hrest⟩ := eq_of_separated (hcolon target) (hcolon target') htext
  have hfields : action = action' ∧
      (toString nonce).toList ++ ':' :: (toString expiry).toList =
        (toString nonce').toList ++ ':' :: (toString expiry').toList := by
    rcases haction with rfl | ⟨haction, haction'⟩
    · exact ⟨rfl, (List.cons.inj (List.append_cancel_left hrest)).2⟩
    · obtain ⟨hname, hnumbers⟩ := eq_of_separated haction haction' hrest
      exact ⟨String.toList_inj.1 hname, hnumbers⟩
  obtain ⟨hnonce, hexpiry⟩ := eq_of_separated (colon_notMem_toString nonce)
    (colon_notMem_toString nonce') hfields.2
  exact ⟨hstring (String.toList_inj.1 htarget), hfields.1,
    Nat.repr_injective (String.toList_inj.1 hnonce),
    Nat.repr_injective (String.toList_inj.1 hexpiry)⟩

/-- **Signed messages are unambiguous**, where the text of an address determines it and has no
colon. For every action, the message determines the address, the nonce and the expiry. So what
`add_to_allowlist_delegated` has verified when it succeeds is not what was signed for any other
address, nonce or expiry, or as any other action. -/
theorem delegatedActionMessage_unambiguous [DecidableEq Address] (ext : Externals Address)
    (hstring : Function.Injective ext.addressString)
    (hcolon : ∀ a, ':' ∉ (ext.addressString a).toList) :
    (∀ action, Function.Injective fun payload : Address × ℕ × ℕ ↦
      delegatedActionMessage ext payload.1 action payload.2.1 payload.2.2) ∧
    ∀ (env : Env Address) (s s' : State Address) (sub : Submission Address),
      addToAllowlistDelegated ext env sub.admin sub.address sub.nonce sub.expiry sub.signature s =
        .ok ((), s') →
      ∃ pubkey message, s.delegatedAdminPubKey = some pubkey ∧
        ext.verifySig pubkey message sub.signature = true ∧
        ∀ target action nonce expiry, ':' ∉ action.toList →
          delegatedActionMessage ext target action nonce expiry = message →
          (target, nonce, expiry) = sub.payload ∧ action = "add_to_allowlist" := by
  constructor
  · rintro action ⟨target, nonce, expiry⟩ ⟨target', nonce', expiry'⟩ h
    obtain ⟨rfl, -, rfl, rfl⟩ := delegatedActionMessage_inj hstring hcolon (.inl rfl) h
    rfl
  · intro env s s' sub hop
    obtain ⟨hpres, -, -⟩ := addToAllowlistDelegated_eq_ok_iff.1 hop
    obtain ⟨pubkey, hkey, hsig⟩ := hpres.signed
    refine ⟨pubkey, _, hkey, hsig, fun target action nonce expiry haction h ↦ ?_⟩
    obtain ⟨rfl, rfl, rfl, rfl⟩ :=
      delegatedActionMessage_inj hstring hcolon (.inr ⟨haction, by decide⟩) h
    exact ⟨rfl, rfl⟩

/-- Addresses as StrKeys. -/
def strKeyExternals : Externals ScAddress where
  addressString := ScAddress.strKey
  verifySig _ _ _ := true
  complianceAuthority _ _ _ := false
  lookupEnding := id

/-- The digits of nonce and expiry are the same in a row. -/
theorem delegatedActionMessage_unambiguous_strKey :
    delegatedActionMessage strKeyExternals (.account (Vector.replicate 32 0)) "add_to_allowlist"
        1 11 ≠
      delegatedActionMessage strKeyExternals (.account (Vector.replicate 32 0)) "add_to_allowlist"
        11 1 := by
  have hcolon : ∀ a, ':' ∉ (strKeyExternals.addressString a).toList :=
    fun a hmem ↦ absurd (mem_alphabet_of_mem_strKey hmem) (by decide)
  intro h
  have hpayload : (ScAddress.account (Vector.replicate 32 0), 1, 11) =
      (ScAddress.account (Vector.replicate 32 0), 11, 1) :=
    (delegatedActionMessage_unambiguous strKeyExternals strKey_injective hcolon).1
      "add_to_allowlist" h
  exact absurd (congrArg (fun p ↦ p.2.1) hpayload) (by decide)

end AllowlistToken
