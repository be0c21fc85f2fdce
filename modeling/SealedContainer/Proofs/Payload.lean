import SealedContainer.Container
import SealedContainer.Proofs.Bytes
import SealedContainer.Proofs.Outcome

/-!
The payload comes back from its encrypted form: the cipher is its own inverse, and the tag that is
checked is the one that was written. Main statement: `decrypts_image_alone`. Nothing is decrypted but
what encryption writes, each text under the nonce in front of it.
-/

namespace SealedContainer

open Outcome

namespace ChaCha20

theorem length_stream (key nonce : Bytes) (counter : Nat) (bytes : Bytes) :
    (stream key nonce counter bytes).length = bytes.length := by
  fun_induction stream key nonce counter bytes with
  | case1 => rfl
  | case2 counter b rest ih =>
      rw [List.length_append, Bytes.length_xor, length_block, ih]
      simp only [List.length_cons, List.length_take, List.length_drop]
      omega

theorem stream_eq (key nonce : Bytes) (counter : Nat) (bytes : Bytes) :
    stream key nonce counter bytes =
      Bytes.xor (bytes.take 64) (block key nonce counter) ++
        stream key nonce (counter + 1) (bytes.drop 64) := by
  cases bytes with
  | nil => simp [stream, Bytes.xor]
  | cons b rest => rw [stream]; rfl

/-- Enciphering twice gives the text back. -/
theorem stream_stream (key nonce : Bytes) (counter : Nat) (bytes : Bytes) :
    stream key nonce counter (stream key nonce counter bytes) = bytes := by
  fun_induction stream key nonce counter bytes with
  | case1 => rw [stream]
  | case2 counter b rest ih =>
      let front := Bytes.xor (b :: rest.take 63) (block key nonce counter)
      let back := stream key nonce (counter + 1) (rest.drop 63)
      change stream key nonce counter (front ++ back) = b :: rest
      have frontSize : front.length = min 64 (rest.length + 1) := by
        simp only [front, Bytes.length_xor, length_block, List.length_cons, List.length_take]
        omega
      have backSize : back.length = rest.length - 63 := by
        rw [length_stream, List.length_drop]
      -- Either the first block is full or nothing follows it.
      have taken : (front ++ back).take 64 = front := by
        have short : (back.take (64 - front.length)).length = 0 := by
          rw [List.length_take]
          omega
        rw [List.take_append, List.take_of_length_le (by omega),
          List.eq_nil_of_length_eq_zero short, List.append_nil]
      have dropped : (front ++ back).drop 64 = back := by
        rw [List.drop_append, List.drop_eq_nil_of_le (by omega), List.nil_append]
        by_cases full : 63 ≤ rest.length
        · rw [show 64 - front.length = 0 by omega, List.drop_zero]
        · rw [List.eq_nil_of_length_eq_zero (by omega : back.length = 0), List.drop_nil]
      have unmasked : Bytes.xor front (block key nonce counter) = b :: rest.take 63 := by
        apply Bytes.xor_xor
        rw [length_block, List.length_cons, List.length_take]
        omega
      rw [stream_eq, taken, dropped, unmasked, ih, List.cons_append, List.take_append_drop]

theorem getElem?_stream (key nonce : Bytes) (counter : Nat) (bytes : Bytes) (i : Nat) :
    (stream key nonce counter bytes)[i]? =
      bytes[i]?.map (· ^^^ (block key nonce (counter + i / 64)).getD (i % 64) 0) := by
  induction i using Nat.strongRecOn generalizing counter bytes with
  | ind i ih =>
      by_cases outside : bytes.length ≤ i
      · rw [List.getElem?_eq_none (by rwa [length_stream]), List.getElem?_eq_none outside,
          Option.map_none]
      have inside : i < bytes.length := Nat.lt_of_not_le outside
      have size := length_block key nonce counter
      have front : (Bytes.xor (bytes.take 64) (block key nonce counter)).length =
          min 64 bytes.length := by
        rw [Bytes.length_xor, size, List.length_take]
        omega
      rw [stream_eq]
      by_cases first : i < 64
      · rw [List.getElem?_append_left (by omega), Bytes.xor, List.getElem?_zipWith,
          List.getElem?_take_of_lt first, List.getElem?_eq_getElem inside,
          List.getElem?_eq_getElem (by omega), Nat.div_eq_of_lt first, Nat.mod_eq_of_lt first,
          Nat.add_zero, List.getD_eq_getElem?_getD, List.getElem?_eq_getElem (by omega)]
        rfl
      · have later : 64 + (i - 64) = i := by omega
        have place : counter + 1 + (i - 64) / 64 = counter + i / 64 := by omega
        have offset : (i - 64) % 64 = i % 64 := by omega
        rw [List.getElem?_append_right (by omega), front, Nat.min_eq_left (by omega),
          ih (i - 64) (by omega), List.getElem?_drop, later, place, offset]

end ChaCha20

namespace Aead

theorem length_sealed (key nonce associated plaintext : Bytes) :
    (sealed key nonce associated plaintext).length = plaintext.length + tagSize := by
  simp [sealed, tag, ChaCha20.length_stream, tagSize]

theorem open?_sealed (key nonce associated plaintext : Bytes) (fits : Fits plaintext) :
    open? key nonce associated (sealed key nonce associated plaintext) = some plaintext := by
  have size := length_sealed key nonce associated plaintext
  let ciphertext := ChaCha20.stream key nonce 1 plaintext
  have parts : sealed key nonce associated plaintext =
      ciphertext ++ tag key nonce associated ciphertext := rfl
  have cut : (sealed key nonce associated plaintext).length - tagSize = ciphertext.length := by
    rw [size, ChaCha20.length_stream]
    omega
  have text : (sealed key nonce associated plaintext).take ciphertext.length = ciphertext := by
    rw [parts, List.take_left]
  have trailer : (sealed key nonce associated plaintext).drop ciphertext.length =
      tag key nonce associated ciphertext := by
    rw [parts, List.drop_left]
  have same : Fits ciphertext := by
    rw [Fits, ChaCha20.length_stream]
    exact fits
  simp only [open?, cut, text, trailer]
  rw [if_pos ⟨by omega, same, trivial⟩, ChaCha20.stream_stream]

/-- A text that is opened is the one that sealing writes. -/
theorem open?_eq_some_iff {key nonce associated text plaintext : Bytes} :
    open? key nonce associated text = some plaintext ↔
      Fits plaintext ∧ text = sealed key nonce associated plaintext := by
  constructor
  · intro opened
    simp only [open?] at opened
    split at opened
    next checked =>
      obtain ⟨_, fits, trailer⟩ := checked
      cases opened
      refine ⟨by rwa [Fits, ChaCha20.length_stream], ?_⟩
      rw [sealed, ChaCha20.stream_stream, ← trailer, List.take_append_drop]
    next => cases opened
  · intro written
    obtain ⟨fits, rfl⟩ := written
    exact open?_sealed key nonce associated plaintext fits

/-- No block of the key stream has a number that does not fit into the counter. -/
theorem Fits.block_lt {text : Bytes} (fits : Fits text) {i : Nat} (inside : i < text.length) :
    1 + i / 64 < 2 ^ 32 := by
  have bound : text.length / 64 < 2 ^ 32 - 1 := fits
  omega

end Aead

namespace Payload

theorem length_encrypt (key : SecretKey .content) (header mac nonce plaintext : Bytes) :
    (encrypt key header mac nonce plaintext).length =
      nonce.length + plaintext.length + Aead.tagSize := by
  rw [encrypt, List.length_append, Aead.length_sealed, Nat.add_assoc]

theorem decrypt_encrypt (key : SecretKey .content) (header mac nonce plaintext : Bytes)
    (size : nonce.length = Aead.nonceSize) (fits : Aead.Fits plaintext) :
    decrypt key header mac (encrypt key header mac nonce plaintext) = .ok plaintext := by
  have long := length_encrypt key header mac nonce plaintext
  have front : (encrypt key header mac nonce plaintext).take Aead.nonceSize = nonce := by
    rw [encrypt, ← size, List.take_left]
  have back : (encrypt key header mac nonce plaintext).drop Aead.nonceSize =
      Aead.sealed key.bytes nonce (associated header mac) plaintext := by
    rw [encrypt, ← size, List.drop_left]
  unfold decrypt
  rw [if_neg (by omega), front, back, Aead.open?_sealed _ _ _ _ fits]
  rfl

section Image

variable {key : SecretKey .content} {header mac encrypted plaintext : Bytes}

theorem decrypt_eq_ok :
    decrypt key header mac encrypted = .ok plaintext ↔
      28 ≤ encrypted.length ∧ Aead.Fits plaintext ∧
        encrypted = encrypt key header mac (encrypted.take 12) plaintext := by
  constructor
  · intro decrypted
    unfold decrypt at decrypted
    split at decrypted
    next => cases decrypted
    next long =>
      have whole : 28 ≤ encrypted.length := Nat.le_of_not_lt long
      split at decrypted
      next opened =>
        cases decrypted
        obtain ⟨fits, written⟩ := Aead.open?_eq_some_iff.mp opened
        refine ⟨whole, fits, ?_⟩
        calc encrypted
          _ = encrypted.take 12 ++ encrypted.drop 12 := (List.take_append_drop 12 encrypted).symm
          _ = encrypt key header mac (encrypted.take 12) _ := congrArg _ written
      next => cases decrypted
  · intro written
    obtain ⟨whole, fits, same⟩ := written
    rw [same]
    exact decrypt_encrypt key header mac _ plaintext (List.length_take_of_le (by omega)) fits

theorem kind_of_decrypt_eq_error {e : CryptoError}
    (refused : decrypt key header mac encrypted = .error e) : e.kind = .authentication := by
  unfold decrypt at refused
  split at refused
  · cases refused
    rfl
  split at refused
  · cases refused
  · cases refused
    rfl

theorem take_encrypt (key : SecretKey .content) (header mac nonce plaintext : Bytes) :
    (encrypt key header mac nonce plaintext).take
        ((encrypt key header mac nonce plaintext).length - 16) =
      nonce ++ ChaCha20.stream key.bytes nonce 1 plaintext := by
  have size : (encrypt key header mac nonce plaintext).length - 16 =
      (nonce ++ ChaCha20.stream key.bytes nonce 1 plaintext).length := by
    rw [length_encrypt, Aead.tagSize, List.length_append, ChaCha20.length_stream]
    omega
  rw [size, encrypt, Aead.sealed, ← List.append_assoc, List.take_left]

theorem eq_of_decrypt_eq_ok {other plaintext' : Bytes} (size : other.length = encrypted.length)
    (front : other.take (other.length - 16) = encrypted.take (encrypted.length - 16))
    (first : decrypt key header mac encrypted = .ok plaintext)
    (second : decrypt key header mac other = .ok plaintext') : other = encrypted := by
  obtain ⟨long, _, written⟩ := decrypt_eq_ok.mp first
  obtain ⟨_, _, written'⟩ := decrypt_eq_ok.mp second
  have nonces : (other.take 12).length = (encrypted.take 12).length := by
    rw [List.length_take, List.length_take, size]
  generalize encrypted.take 12 = nonce at written nonces
  generalize other.take 12 = nonce' at written' nonces
  subst written written'
  rw [take_encrypt, take_encrypt] at front
  obtain ⟨rfl, ciphertexts⟩ := List.append_inj front nonces
  rw [encrypt, encrypt, Aead.sealed, Aead.sealed, ciphertexts]

end Image

/--
What is decrypted is what encryption writes under the nonce in front of it, and everything else is
refused as not authentic. Hence a text that fits comes back under every nonce, from 28 bytes more.
Each of its bytes is masked by the byte of the key stream at its place, for which the block counter
is wide enough, and with another tag it does not come back.
-/
theorem decrypts_image_alone (key : SecretKey .content) (header mac : Bytes) :
    (∀ encrypted plaintext : Bytes, decrypt key header mac encrypted = .ok plaintext ↔
      28 ≤ encrypted.length ∧ Aead.Fits plaintext ∧
        encrypted = encrypt key header mac (encrypted.take 12) plaintext) ∧
    (∀ encrypted : Bytes, encrypted.length < 28 ∨
        (∀ plaintext, Aead.Fits plaintext →
          encrypted ≠ encrypt key header mac (encrypted.take 12) plaintext) →
      ∃ e, decrypt key header mac encrypted = .error e ∧ e.kind = .authentication) ∧
    ∀ nonce plaintext : Bytes, nonce.length = 12 → Aead.Fits plaintext →
      let encrypted := encrypt key header mac nonce plaintext
      decrypt key header mac encrypted = .ok plaintext ∧
      encrypted.length = plaintext.length + 28 ∧
      (∀ i < plaintext.length, 1 + i / 64 < 2 ^ 32 ∧ encrypted[12 + i]? = plaintext[i]?.map
        (· ^^^ (ChaCha20.block key.bytes nonce (1 + i / 64)).getD (i % 64) 0)) ∧
      ∀ other : Bytes, other.length = encrypted.length → other ≠ encrypted →
        other.take (other.length - 16) = encrypted.take (encrypted.length - 16) →
        ∃ e, decrypt key header mac other = .error e ∧ e.kind = .authentication := by
  have refused (encrypted : Bytes)
      (never : ∀ plaintext, decrypt key header mac encrypted ≠ .ok plaintext) :
      ∃ e, decrypt key header mac encrypted = .error e ∧ e.kind = .authentication := by
    cases result : decrypt key header mac encrypted with
    | ok plaintext => exact absurd result (never plaintext)
    | error e => exact ⟨e, rfl, kind_of_decrypt_eq_error result⟩
  refine ⟨fun _ _ => decrypt_eq_ok, ?_, ?_⟩
  · intro encrypted foreign
    apply refused
    intro plaintext decrypted
    obtain ⟨long, fits, written⟩ := decrypt_eq_ok.mp decrypted
    rcases foreign with short | unwritten
    · exact absurd long (Nat.not_le_of_lt short)
    · exact unwritten plaintext fits written
  · intro nonce plaintext drawn fits encrypted
    have back : decrypt key header mac encrypted = .ok plaintext :=
      decrypt_encrypt key header mac nonce plaintext drawn fits
    refine ⟨back, ?_, ?_, ?_⟩
    · rw [length_encrypt, drawn, Aead.tagSize]
      omega
    · intro i inside
      refine ⟨fits.block_lt inside, ?_⟩
      have parts : encrypted = nonce ++ (ChaCha20.stream key.bytes nonce 1 plaintext ++
          Aead.tag key.bytes nonce (associated header mac)
            (ChaCha20.stream key.bytes nonce 1 plaintext)) := rfl
      rw [parts, List.getElem?_append_right (by omega), drawn, Nat.add_sub_cancel_left,
        List.getElem?_append_left (by rwa [ChaCha20.length_stream]), ChaCha20.getElem?_stream]
    · intro other size different front
      apply refused
      intro plaintext' decrypted
      exact different (eq_of_decrypt_eq_ok size front back decrypted)

/-- Three bytes under a nonce, and the same with the last bit of the tag turned over. -/
theorem three_bytes_decrypted :
    let key : SecretKey .content := ⟨List.replicate 32 7, rfl⟩
    let encrypted := encrypt key [1] [2] (List.replicate 12 9) [10, 20, 30]
    let other := encrypted.set 30 (encrypted[30]?.getD 0 ^^^ 1)
    (List.replicate 12 (9 : UInt8)).length = 12 ∧ Aead.Fits [10, 20, 30] ∧
      decrypt key [1] [2] encrypted = .ok [10, 20, 30] ∧ encrypted.length = 31 ∧
      ∃ e, decrypt key [1] [2] other = .error e ∧ e.kind = .authentication := by
  intro key encrypted other
  have drawn : (List.replicate 12 (9 : UInt8)).length = 12 := rfl
  have fits : Aead.Fits [10, 20, 30] := by decide
  obtain ⟨back, size, _, tags⟩ :=
    (decrypts_image_alone key [1] [2]).2.2 (List.replicate 12 9) [10, 20, 30] drawn fits
  have last : 30 < encrypted.length := by rw [size]; decide
  refine ⟨drawn, fits, back, size, tags other (List.length_set ..) ?_ ?_⟩
  · intro same
    have byte : encrypted[30]? = some (encrypted[30]?.getD 0 ^^^ 1) := by
      rw [← List.getElem?_set_self last]
      exact congrArg (·[30]?) same.symm
    rw [List.getElem?_eq_getElem last, Option.getD_some, Option.some.injEq] at byte
    have bits := congrArg (encrypted[30] ^^^ ·) byte
    simp only [← UInt8.xor_assoc, UInt8.xor_self, UInt8.zero_xor] at bits
    exact absurd bits (by decide)
  · rw [List.length_set, size]
    exact List.take_set_of_le (by decide)

end Payload

end SealedContainer
