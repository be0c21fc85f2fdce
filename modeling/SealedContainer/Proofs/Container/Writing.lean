import SealedContainer.Proofs.Container.RoundTrip

/-!
What a failed encryption leaves behind. Main statement: `written_front`. The payload is read before
anything is written, so that a payload that cannot be read leaves nothing; after that a stream gets
the container from its front, as far as there is room for it.
-/

namespace SealedContainer

namespace Sink

def limit? : List Uptake → Option Nat
  | [] => none
  | .room n :: rest => (limit? rest).map (n + ·)
  | .fail _ :: _ => some 0

theorem le_of_limit? {n k : Nat} {rest : List Uptake} (limit : limit? (.room n :: rest) = some k) :
    n ≤ k := by
  obtain ⟨m, _, rfl⟩ := Option.map_eq_some_iff.mp limit
  exact Nat.le_add_right n m

/-- All that the writing of some bytes can come to. -/
inductive Takes (sink : Sink) (bytes : Bytes) : Sink × Except String Unit → Prop
  | all {left : Sink} (room : ∀ n, limit? sink.uptakes = some n → bytes.length ≤ n)
    (got : left.written = sink.written ++ bytes)
    (remains : limit? left.uptakes = (limit? sink.uptakes).map (· - bytes.length)) :
    Takes sink bytes (left, .ok ())
  | front {left : Sink} {n : Nat} (text : String) (limit : limit? sink.uptakes = some n)
    (beyond : n < bytes.length) (got : left.written = sink.written ++ bytes.take n) :
    Takes sink bytes (left, .error text)

section Taken

variable {sink left : Sink} {bytes : Bytes} {result : Except String Unit}
  (takes : Takes sink bytes (left, result))

include takes

theorem Takes.written_of_limit {n : Nat} (limit : limit? sink.uptakes = some n) :
    left.written = sink.written ++ bytes.take (min n bytes.length) := by
  cases takes with
  | all room got => rw [got, Nat.min_eq_right (room n limit), List.take_length]
  | front text reached beyond got =>
      cases limit.symm.trans reached
      rw [got, Nat.min_eq_left (Nat.le_of_lt beyond)]

theorem Takes.written_of_unlimited (unlimited : limit? sink.uptakes = none) :
    left.written = sink.written ++ bytes := by
  cases takes with
  | all room got => exact got
  | front text reached => cases unlimited.symm.trans reached

theorem Takes.eq_ok_iff : result = .ok () ↔ left.written = sink.written ++ bytes := by
  cases takes with
  | all room got => exact iff_of_true rfl got
  | @front _ n text reached beyond got =>
      constructor
      · intro same
        cases same
      · intro complete
        rw [got, List.append_cancel_left_eq] at complete
        have lengths := congrArg List.length complete
        rw [List.length_take_of_le (Nat.le_of_lt beyond)] at lengths
        omega

end Taken

theorem Takes.append {sink left : Sink} {bytes more : Bytes}
    {result : Sink × Except String Unit} (first : Takes sink bytes (left, .ok ()))
    (later : Takes left more result) : Takes sink (bytes ++ more) result := by
  cases first with
  | all room got remains =>
      cases later with
      | all room' got' remains' =>
          refine .all ?_ ?_ ?_
          · intro n limit
            have enough := room n limit
            rw [limit, Option.map_some] at remains
            have enough' := room' _ remains
            rw [List.length_append]
            omega
          · rw [got', got, List.append_assoc]
          · rw [remains', remains, Option.map_map, List.length_append]
            congr 1
            funext n
            exact Nat.sub_sub n bytes.length more.length
      | front text limit beyond got' =>
          rw [remains, Option.map_eq_some_iff] at limit
          obtain ⟨n, limit, rfl⟩ := limit
          have enough := room n limit
          refine .front text limit ?_ ?_
          · rw [List.length_append]
            omega
          · rw [got', got, List.append_assoc, List.take_append, List.take_of_length_le enough]

theorem writeBytes_takes (written : Bytes) (uptakes : List Uptake) (bytes : Bytes) :
    Takes ⟨uptakes, written⟩ bytes (writeBytes written uptakes bytes) := by
  fun_induction writeBytes written uptakes bytes with
  | case1 written uptakes =>
      refine .all (fun _ _ => Nat.zero_le _) (by simp) ?_
      cases limit? uptakes <;> rfl
  | case2 written bytes _ =>
      refine .all ?_ rfl rfl
      intro n limit
      cases limit
  | case3 written text rest bytes some =>
      have positive : 0 < bytes.length := List.length_pos_of_ne_nil some
      exact .front text rfl positive (by simp)
  | case4 written n rest bytes _ fits =>
      refine .all (fun k limit => Nat.le_trans fits (le_of_limit? limit)) rfl ?_
      simp only [limit?, Option.map_map]
      congr 1
      funext m
      simp only [Function.comp]
      omega
  | case5 written n rest bytes _ full ih =>
      have size : (bytes.take n).length = n := List.length_take_of_le (by omega)
      have first : Takes ⟨.room n :: rest, written⟩ (bytes.take n)
          (⟨rest, written ++ bytes.take n⟩, .ok ()) := by
        refine .all (fun k limit => size.trans_le (le_of_limit? limit)) rfl ?_
        rw [limit?, Option.map_map, size]
        cases limit? rest <;> simp
      have both := first.append ih
      rwa [List.take_append_drop] at both

theorem writeEach_takes (sink : Sink) (pieces : List Bytes) :
    Takes sink pieces.flatten (sink.writeEach pieces) := by
  -- By induction on the pieces: what is left of the limit is the limit for the pieces that follow.
  induction pieces generalizing sink with
  | nil =>
      refine .all (fun _ _ => Nat.zero_le _) (by simp) ?_
      cases limit? sink.uptakes <;> rfl
  | cons piece pieces ih =>
      have first := writeBytes_takes sink.written sink.uptakes piece
      rw [writeEach, write]
      generalize writeBytes sink.written sink.uptakes piece = result at first ⊢
      cases first with
      | front text limit beyond got =>
          refine .front text limit ?_ ?_
          · rw [List.flatten_cons, List.length_append]
            omega
          · rw [got, List.flatten_cons, List.take_append_of_le_length (Nat.le_of_lt beyond)]
      | @all left room got remains =>
          rw [List.flatten_cons]
          exact Takes.append (.all room got remains) (ih left)

end Sink

namespace Envelope

variable {e : Envelope} {nonce : Bytes} {payload : Source} {sink : Sink}

theorem container_eq (e : Envelope) (nonce plaintext : Bytes) :
    e.container nonce plaintext =
      Bytes.ofString "CDOC" ++ [2] ++ Bytes.ofNatBE 4 e.headerBytes.length ++ e.headerBytes ++
        hmacSha256 e.macKey.bytes e.headerBytes ++
        Payload.encrypt e.contentKey e.headerBytes (hmacSha256 e.macKey.bytes e.headerBytes) nonce
          plaintext := by
  simp only [container, Frame.flatten_pieces, Frame.prelude, List.append_assoc]
  rfl

theorem length_container (e : Envelope) (drawn : nonce.length = 12) (plaintext : Bytes) :
    (e.container nonce plaintext).length =
      9 + e.headerBytes.length + 32 + 12 + plaintext.length + 16 := by
  rw [container, List.length_append, Payload.length_encrypt, Frame.flatten_pieces,
    List.length_append, List.length_append, Frame.length_prelude, length_mac_frame, drawn]
  change 9 + (e.headerBytes.length + 32) + (12 + plaintext.length + 16) = _
  omega

theorem encrypt_of_large (large : 2 ^ 32 ≤ e.headerBytes.length) :
    e.encrypt nonce payload sink = (sink, .error (.headerTooLarge e.headerBytes.length)) := by
  have beyond : maxHeaderSize < e.frame.header.length := large
  simp only [encrypt, if_pos beyond]
  rfl

section Small

variable (small : e.headerBytes.length < 2 ^ 32)

include small

theorem not_maxHeaderSize_lt : ¬ maxHeaderSize < e.frame.header.length :=
  Nat.not_lt.mpr (Nat.le_of_lt_succ small)

theorem encrypt_of_failure {failure : StreamFailure} (failed : payload.failure? = some failure) :
    e.encrypt nonce payload sink = (sink, .error (.io failure.text)) := by
  simp only [encrypt, if_neg (not_maxHeaderSize_lt small), payload.readAll_eq, failed]

theorem encrypt_of_long (whole : payload.failure? = none) (long : ¬ Aead.Fits payload.bytes) :
    e.encrypt nonce payload sink = (sink, .error .payloadTooLong) := by
  simp only [encrypt, if_neg (not_maxHeaderSize_lt small), payload.readAll_eq, whole, if_neg long]

/-- Once the payload is read, the container is written like one piece. -/
theorem encrypt_takes (whole : payload.failure? = none) (fits : Aead.Fits payload.bytes) :
    ∃ left result, e.encrypt nonce payload sink = (left, result.mapError .io) ∧
      sink.Takes (e.container nonce payload.bytes) (left, result) := by
  have takes := sink.writeEach_takes (e.frame.pieces ++ [Payload.encrypt e.contentKey
    e.frame.header e.frame.mac nonce payload.bytes])
  rw [List.flatten_append, List.flatten_singleton] at takes
  simp only [encrypt, if_neg (not_maxHeaderSize_lt small), payload.readAll_eq, whole, if_pos fits]
  generalize sink.writeEach _ = wrote at takes ⊢
  exact ⟨wrote.1, wrote.2, rfl, takes⟩

end Small

/--
Nothing is written of a container that cannot be made: if its header is too large for the length
field, if the payload cannot be read, or if it is too long for the cipher. Of every other container
a stream gets the front, up to its failure, and the encryption succeeds if and only if that is all.
-/
theorem written_front (e : Envelope) (nonce : Bytes) (drawn : nonce.length = 12)
    (payload : Source) (sink : Sink) :
    let header := e.headerBytes
    let mac := hmacSha256 e.macKey.bytes header
    let ciphertext := ChaCha20.stream e.contentKey.bytes nonce 1 payload.bytes
    let tag := Aead.tag e.contentKey.bytes nonce (Payload.associated header mac) ciphertext
    let container := Bytes.ofString "CDOC" ++ [2] ++ Bytes.ofNatBE 4 header.length ++ header ++ mac ++
      nonce ++ ciphertext ++ tag
    let left := (e.encrypt nonce payload sink).1
    let result := (e.encrypt nonce payload sink).2
    (2 ^ 32 ≤ header.length → left = sink ∧ result = .error (.headerTooLarge header.length)) ∧
    (header.length < 2 ^ 32 →
      (∀ failure, payload.failure? = some failure →
        left = sink ∧ result = .error (.io failure.text)) ∧
      (payload.failure? = none → ¬ Aead.Fits payload.bytes →
        left = sink ∧ result = .error .payloadTooLong) ∧
      (payload.failure? = none → Aead.Fits payload.bytes →
        container.length = 9 + header.length + 32 + 12 + payload.bytes.length + 16 ∧
        (∀ n, Sink.limit? sink.uptakes = some n →
          left.written = sink.written ++ container.take (min n container.length)) ∧
        (Sink.limit? sink.uptakes = none → left.written = sink.written ++ container) ∧
        (result = .ok () ↔ left.written = sink.written ++ container) ∧
        (result = .ok () ∨ ∃ text, result = .error (.io text)))) := by
  intro header mac ciphertext tag container left result
  refine ⟨?_, ?_⟩
  · intro large
    simp only [left, result, encrypt_of_large large, header, and_self]
  intro small
  refine ⟨?_, ?_, ?_⟩
  · intro failure failed
    simp only [left, result, encrypt_of_failure small failed, and_self]
  · intro whole long
    simp only [left, result, encrypt_of_long small whole long, and_self]
  · intro whole fits
    have same : e.container nonce payload.bytes = container := by
      simp only [container_eq, Payload.encrypt, Aead.sealed, container, List.append_assoc]
      rfl
    obtain ⟨last, outcome, wrote, takes⟩ :=
      @encrypt_takes e nonce payload sink small whole fits
    have size := e.length_container drawn payload.bytes
    rw [same] at takes size
    simp only [left, result, wrote]
    refine ⟨size, fun n => takes.written_of_limit, takes.written_of_unlimited, ?_, ?_⟩
    · rw [← takes.eq_ok_iff, Outcome.mapError_eq_ok]
    · cases outcome with
      | ok => exact .inl rfl
      | error text => exact .inr ⟨text, rfl⟩

def selfAddressed : Envelope :=
  let key := (EcKeyPair.one .secp256r1).publicKey
  ⟨[⟨.secp256r1, key, key, List.replicate 32 3⟩], ⟨List.replicate 32 1, rfl⟩,
    ⟨List.replicate 32 2, rfl⟩⟩

/-- A stream with room for nine bytes gets as far as the length of the header, and a payload that
breaks off leaves it as it was. -/
theorem nine_bytes_written :
    let sink : Sink := ⟨[.room 5, .room 4, .fail "full"], [8]⟩
    let nonce : Bytes := List.replicate 12 9
    nonce.length = 12 ∧ selfAddressed.headerBytes.length < 2 ^ 32 ∧ Aead.Fits [1, 2, 3] ∧
      (∃ left text, selfAddressed.encrypt nonce [.chunk [1, 2], .chunk [3]] sink =
        (left, .error (.io text)) ∧
        left.written = [8] ++ Bytes.ofString "CDOC" ++ [2] ++ [0, 0, 1, 16]) ∧
      selfAddressed.encrypt nonce [.chunk [1], .fail "cut"] sink = (sink, .error (.io "cut")) := by
  intro sink nonce
  have drawn : nonce.length = 12 := rfl
  have size : selfAddressed.headerBytes.length = 272 := by decide +kernel
  have small : selfAddressed.headerBytes.length < 2 ^ 32 := by rw [size]; decide
  have fits : Aead.Fits [1, 2, 3] := by decide
  obtain ⟨_, delivered⟩ := written_front selfAddressed nonce drawn [.chunk [1, 2], .chunk [3]] sink
  obtain ⟨_, brokenOff⟩ := written_front selfAddressed nonce drawn [.chunk [1], .fail "cut"] sink
  obtain ⟨long, front, _, whole, ended⟩ := (delivered small).2.2 rfl fits
  have got := front 9 rfl
  generalize selfAddressed.encrypt nonce [.chunk [1, 2], .chunk [3]] sink = wrote at got whole ended ⊢
  obtain ⟨left, result⟩ := wrote
  rw [long, size] at got
  refine ⟨drawn, small, fits, ?_, ?_⟩
  · rcases ended with success | ⟨text, failed⟩
    · have sizes := congrArg List.length (got.symm.trans (whole.mp success))
      rw [List.length_append, List.length_append, List.length_take, long, size] at sizes
      omega
    · refine ⟨left, text, by rw [← failed], ?_⟩
      rw [got]
      simp only [List.append_assoc]
      rfl
  · obtain ⟨kept, failed⟩ := (brokenOff small).1 "cut" rfl
    exact Prod.ext kept failed

/-- A header for 2 ^ 30 recipients is too large, and that comes before a payload that cannot be read.
A payload of 2 ^ 38 bytes is read, and nothing is written all the same. -/
theorem oversized_unwritten :
    let sender := EcKeyPair.one .secp256r1
    let nonce : Bytes := List.replicate 12 9
    let sink : Sink := ⟨[], []⟩
    (∃ e refusal,
      prepare (List.replicate 32 7) sender (List.replicate (2 ^ 30) sender.publicKey) = .ok e ∧
        e.encrypt nonce [.fail "cut"] sink = (sink, .error refusal) ∧
          refusal.kind = .invalidArgument) ∧
      ∃ e, prepare (List.replicate 32 7) sender [sender.publicKey] = .ok e ∧
        e.encrypt nonce (.ofBytes (List.replicate (2 ^ 38) 0)) sink =
          (sink, .error .payloadTooLong) := by
  intro sender nonce sink
  have size : (List.replicate 32 (7 : UInt8)).length = keySize := rfl
  have prepared : ∀ count, 0 < count →
      ∃ e, prepare (List.replicate 32 7) sender (List.replicate count sender.publicKey) = .ok e := by
    intro count positive
    refine exists_prepare size ?_ ?_
    · rw [ne_eq, List.replicate_eq_nil_iff]
      omega
    · intro key member
      rw [List.eq_of_mem_replicate member]
      rfl
  constructor
  · obtain ⟨e, made⟩ := prepared (2 ^ 30) (by decide)
    obtain ⟨_, _, _, each⟩ := prepare_eq_ok.mp made
    have count : e.recipients.length = 2 ^ 30 := by rw [each.length_eq, List.length_replicate]
    have large : 2 ^ 32 ≤ e.headerBytes.length := by
      by_contra small
      have references := four_mul_le_length_headerBytes each.proper (Nat.lt_of_not_le small)
      omega
    exact ⟨e, _, made, encrypt_of_large large, rfl⟩
  · obtain ⟨e, made⟩ := prepared 1 Nat.one_pos
    obtain ⟨_, _, _, each⟩ := prepare_eq_ok.mp made
    have small := length_headerBytes_lt each.proper (by rw [each.length_eq]; decide)
    have long : ¬ Aead.Fits (Source.ofBytes (List.replicate (2 ^ 38) 0)).bytes := by
      rw [Source.ofBytes, Source.bytes, Source.bytes, List.append_nil, Aead.Fits,
        List.length_replicate]
      decide
    exact ⟨e, made, encrypt_of_long (by omega) rfl long⟩

end Envelope

end SealedContainer
