import SealedContainer.Header.Layout
import SealedContainer.Proofs.Container.Precedence
import SealedContainer.Proofs.Header.Access

/-!
Headers that pass the check are safe to open: the tables are read without a fault and without a
look outside the header, on any memory around it, and no part is missing that opening a record
relies on.
-/

namespace SealedContainer.Container

open Outcome

/-- A fault of a record that the check of the tables rules out. -/
def ruledOut : CryptoError → Bool
  | .noWrappedKey => true
  | .detailsMismatch _ => true
  | .recordNoSender => true
  | _ => false

theorem ruledOut_of_headerKey_eq_error {curve : Curve} {side : Side} {bytes : Bytes}
    {e : CryptoError} (refused : headerKey curve side bytes = .error e) : ruledOut e = false := by
  unfold headerKey at refused
  cases decoded : EcPublicKey.decode curve bytes with
  | ok key => simp [decoded, Except.mapError] at refused
  | error fault =>
      simp only [decoded, Except.mapError, Except.error.injEq] at refused
      rw [← refused]
      rfl

theorem ruledOut_of_curveOfTag_eq_error {tag : Int8} {e : CryptoError}
    (refused : curveOfTag tag = .error e) : ruledOut e = false := by
  rw [← (orThrow_eq_error.mp refused).2]
  rfl

theorem ruledOut_of_eccRecipient_eq_error {d : Header.EccDetails} {wrapped : Bytes}
    {e : CryptoError} (recipient : d.recipient.isSome) (sender : d.sender.isSome)
    (refused : eccRecipient d wrapped = .error e) : ruledOut e = false := by
  rcases Option.isSome_iff_exists.mp recipient with ⟨recipient, first⟩
  rcases Option.isSome_iff_exists.mp sender with ⟨sender, second⟩
  simp only [eccRecipient, first, second, orThrow, ok_bind] at refused
  rcases bind_eq_error.mp refused with tag | ⟨curve, _, refused⟩
  · exact ruledOut_of_curveOfTag_eq_error tag
  rcases bind_eq_error.mp refused with undecoded | ⟨_, _, refused⟩
  · exact ruledOut_of_headerKey_eq_error undecoded
  rcases bind_eq_error.mp refused with undecoded | ⟨_, _, impossible⟩
  · exact ruledOut_of_headerKey_eq_error undecoded
  · cases impossible

theorem ruledOut_of_serverRecipient_eq_error {d : Header.ServerDetails} {wrapped : Bytes}
    {e : CryptoError} (server : d.server.isSome) (transaction : d.transaction.isSome)
    (refused : serverRecipient d wrapped = .error e) : ruledOut e = false := by
  rcases Option.isSome_iff_exists.mp server with ⟨server, first⟩
  rcases Option.isSome_iff_exists.mp transaction with ⟨transaction, second⟩
  simp only [serverRecipient, first, second, orThrow, ok_bind] at refused
  rcases bind_eq_error.mp refused with tag | ⟨_, _, impossible⟩
  · exact ruledOut_of_curveOfTag_eq_error tag
  · cases impossible

/-- A record with all its required parts is refused for what the parts say, never for a missing
one. -/
theorem ruledOut_of_recipient_eq_error {r : Header.Record} (guarded : r.Guarded) {e : CryptoError}
    (refused : recipient r = .error e) : ruledOut e = false := by
  rcases r with ⟨type, details, key, method⟩
  rcases guarded with ⟨there, parts⟩
  rcases Option.isSome_iff_exists.mp there with ⟨wrapped, rfl⟩
  unfold recipient at refused
  simp only [orThrow, ok_bind, throw_eq_error] at refused
  split at refused
  · cases refused
    rfl
  split at refused
  · cases refused
    rfl
  cases parts with
  | ecc hasRecipient hasSender =>
      simp only [Header.Record.ecc?, ok_bind] at refused
      rcases bind_eq_error.mp refused with inner | ⟨_, _, impossible⟩
      · exact ruledOut_of_eccRecipient_eq_error hasRecipient hasSender inner
      · cases impossible
  | server _ hasServer hasTransaction =>
      simp only [Header.Record.server?, ok_bind] at refused
      rcases bind_eq_error.mp refused with inner | ⟨_, _, impossible⟩
      · exact ruledOut_of_serverRecipient_eq_error hasServer hasTransaction inner
      · cases impossible
  | other one two =>
      simp only [if_neg one, if_neg two] at refused
      cases refused
      rfl

theorem recoverKey_ne_recordNoSender {h : Header} {own : EcKeyPair} {r : Header.Record}
    (guarded : ∀ r ∈ h.records.getD [], r.Guarded) (found : findRecord h own = some r) :
    recoverKey r own ≠ .error .recordNoSender := by
  intro failed
  rcases findRecord_eq_some.mp found with ⟨i, there, matched, _⟩
  have whole := guarded r (List.mem_of_getElem? there)
  rcases recoverKey_eq_error whole matched failed with ⟨_, _, ⟨_, _, other⟩ | ⟨_, _, _, _, _, other⟩⟩
  · cases other
  · cases other

/-- Whatever bytes pass the check are read without a fault and without leaving them, on any memory
that they are part of. Every required part of every record is there, so none of the faults for a
missing one is ever met. -/
theorem opened_header_safe (bytes : Bytes) (accepted : Header.verified bytes = true) :
    ∃ header, openHeader bytes = .ok header ∧
      (∀ m : Header.Memory, m.Holds bytes → Header.Access.header.eval m = some header ∧
        ∀ r ∈ Header.Access.header.reads m, r.Inside bytes) ∧
      (∀ r ∈ header.records.getD [], r.Guarded) ∧
      (∀ r ∈ header.records.getD [], recipient r ≠ .error .noWrappedKey ∧
        ∀ name, recipient r ≠ .error (.detailsMismatch name)) ∧
      ∀ own r, findRecord header own = some r → recoverKey r own ≠ .error .recordNoSender := by
  rcases Header.read?_of_verified accepted with ⟨header, read, guarded⟩
  have opened : Header.ofBytes? bytes = some header := by
    rw [Header.ofBytes?, if_pos accepted, read]
  have checked : Header.Access.header.checked bytes = some header := by
    rw [Header.Access.checked_header, read]
  refine ⟨header, openHeader_eq_ok.mpr opened, ?_, guarded, ?_, ?_⟩
  · intro m holds
    exact Header.Access.eval_of_checked holds checked
  · intro r member
    constructor
    · intro refused
      cases ruledOut_of_recipient_eq_error (guarded r member) refused
    · intro name refused
      cases ruledOut_of_recipient_eq_error (guarded r member) refused
  · intro own r found
    exact recoverKey_ne_recordNoSender guarded found

/-- A header with a record of each kind, the last of an unknown type. -/
def threeKinds : Bytes :=
  (Header.toBytes? .curveFirst ⟨some [
    ⟨1, some (.ecc ⟨2, some [4], some [5]⟩), some [6], 1⟩,
    ⟨2, some (.server ⟨0, some [7], some "a", some "b"⟩), some [], 0⟩,
    ⟨9, some (.ecc ⟨0, some [], some []⟩), some [], 0⟩], 1⟩).getD []

theorem threeKinds_safe :
    Header.verified threeKinds = true ∧ ∃ header, openHeader threeKinds = .ok header ∧
      (∀ m : Header.Memory, m.Holds threeKinds → Header.Access.header.eval m = some header ∧
        ∀ r ∈ Header.Access.header.reads m, r.Inside threeKinds) ∧
      ∀ r ∈ header.records.getD [], r.Guarded := by
  have accepted : Header.verified threeKinds = true := by decide +kernel
  rcases opened_header_safe threeKinds accepted with ⟨header, opened, safe, guarded, _⟩
  exact ⟨accepted, header, opened, safe, guarded⟩

end SealedContainer.Container
