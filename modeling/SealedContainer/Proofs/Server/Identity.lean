import SealedContainer.Proofs.Bytes.Base64
import SealedContainer.Proofs.Server.Posting
import SealedContainer.Proofs.Server.Privacy
import SealedContainer.Proofs.Text

/-!
Who a server takes the sender of a request for. Main statement: `unvouched_as_anonymous`. The header
with the identity counts only if it is trusted and spells a key (`keyOfHeader?_eq_some_iff`), and
then by that key alone. Otherwise the request is answered as if the header were not there. A server
that takes capsules reads two headers for itself, and the configuration may give the header with the
identity one of their names: `expiry_as_identity` is a request for which that makes a difference.
-/

namespace SealedContainer

namespace IdentitySource

/-- A value is the base 64 of the info of a key, with nothing around it but white space. -/
def Spells (value : Bytes) (key : PublicKey) : Prop :=
  ∃ front info back, value = front ++ Bytes.ofString (Base64.encodeText info) ++ back ∧
    (∀ b ∈ front ++ back, isBlankByte b = true) ∧ PublicKey.ofInfo info = .ok key

theorem letters_encodeText (info : Bytes) :
    (Bytes.ofString (Base64.encodeText info)).map (fun b => Char.ofNat b.toNat) =
      Base64.encode info := by
  have ascii : ∀ c ∈ (Base64.encodeText info).toList, c.toNat < 128 := by
    intro c member
    rw [Base64.encodeText, String.toList_ofList] at member
    exact (Base64.visible_encode info c member).2
  rw [Bytes.map_letter_ofString ascii, Base64.encodeText, String.toList_ofList]

theorem not_blank_of_mem_encodeText {info : Bytes} {b : UInt8}
    (member : b ∈ Bytes.ofString (Base64.encodeText info)) : isBlankByte b = false := by
  have letter : Char.ofNat b.toNat ∈ Base64.encode info := by
    rw [← letters_encodeText]
    exact List.mem_map_of_mem member
  have visible : 32 < b.toNat := by
    rw [← Bytes.toNat_letter]
    exact (Base64.visible_encode info _ letter).1
  have other (n : UInt8) (low : n.toNat ≤ 32) : (b == n) = false := by
    apply beq_false_of_ne
    rintro rfl
    omega
  simp [isBlankByte, other]

theorem decode_letters_iff {digits info : Bytes} :
    Base64.decode (digits.map fun b => Char.ofNat b.toNat) = some info ↔
      digits = Bytes.ofString (Base64.encodeText info) := by
  rw [Base64.decode_eq_some_iff, ← letters_encodeText]
  exact List.map_inj_right fun _ _ => Bytes.letter_injective

theorem keyOfHeader?_eq_some_iff {value : Bytes} {key : PublicKey} :
    keyOfHeader? value = some key ↔ Spells value key := by
  have accepted (info : Bytes) :
      (PublicKey.ofInfo info).toOption = some key ↔ PublicKey.ofInfo info = .ok key := by
    cases PublicKey.ofInfo info <;> simp [Except.toOption]
  simp only [keyOfHeader?, Option.bind_eq_bind, Option.bind_eq_some_iff, decode_letters_iff, accepted]
  constructor
  · intro read
    obtain ⟨info, digits, known⟩ := read
    obtain ⟨front, back, split, blank⟩ := trimBoth_split isBlankByte value
    rw [digits] at split
    exact ⟨front, info, back, split, blank, known⟩
  · intro spelled
    obtain ⟨front, info, back, rfl, blank, known⟩ := spelled
    exact ⟨info, trimBoth_of_split blank fun _ => not_blank_of_mem_encodeText, known⟩

def Names (source : IdentitySource) (request : Http.Request) (key : PublicKey) : Prop :=
  ∃ value, request.header? source.header = some value ∧ Spells value key

theorem identify_eq_some_iff {source : IdentitySource} {request : Http.Request} {key : PublicKey} :
    source.identify request = some key ↔ source.trusted = true ∧ source.Names request key := by
  simp only [identify, Names, Option.ite_none_right_eq_some, Option.bind_eq_some_iff,
    keyOfHeader?_eq_some_iff]

theorem identify_eq_none {source : IdentitySource} {request : Http.Request}
    (unvouched : source.trusted = false ∨ ∀ key, ¬ source.Names request key) :
    source.identify request = none := by
  apply Option.eq_none_iff_forall_ne_some.mpr
  intro key known
  have vouched := identify_eq_some_iff.mp known
  cases unvouched with
  | inl untrusted => simp [untrusted] at vouched
  | inr nameless => exact nameless key vouched.2

end IdentitySource

namespace Http.Request

def without (r : Request) (name : String) : Request :=
  { r with headers := r.headers.filter fun h => folded h.1 != folded name }

variable (r : Request) {name field : String}

theorem header?_without_self (name : String) : (r.without name).header? name = none := by
  simp only [header?, without, Option.map_eq_none_iff, List.find?_eq_none]
  intro h member
  simpa using (List.mem_filter.mp member).2

theorem header?_without_of_ne (apart : folded field ≠ folded name) :
    (r.without name).header? field = r.header? field := by
  have kept : (fun h : String × Bytes =>
      decide ((folded h.1 != folded name) = true ∧ (folded h.1 == folded field) = true)) =
        fun h => folded h.1 == folded field := by
    funext h
    by_cases named : folded h.1 = folded field
    · simp [named, apart]
    · simp [named]
  rw [header?, without, List.find?_filter, kept, header?]

theorem without_without (name : String) : (r.without name).without name = r.without name := by
  simp only [without, List.filter_filter, Bool.and_self]

end Http.Request

namespace CapsuleServer

variable (server : CapsuleServer) (caller : Option PublicKey) (request : Http.Request)
  (now : Instant) (draws : Draws) (state : ServerState)

/-- What becomes of a capsule when it is settled who asks for it. -/
def releaseTo (segment : List Char) : ServerState × Except ApiError Http.Response :=
  match caller with
  | none => (state, .error .unauthorized)
  | some caller =>
    match Bytes.toString? (Http.Target.unescaped segment) with
    | none => (state, .ok (.ofText 400 "Invalid URL"))
    | some id =>
      match state.storage.fetch id caller with
      | (storage, .ok c) =>
        (⟨storage, { state.metrics with fetched := state.metrics.fetched + 1 }⟩,
          .ok (.ofJson 200 c.print.toList))
      | (storage, .error .notFound) =>
        (⟨storage, { state.metrics with notFound := state.metrics.notFound + 1 }⟩, .error .notFound)
      | (storage, .error e) => ({ state with storage }, .error (.ofCapsuleError e))

def answerTo : ServerState × Except ApiError Http.Response :=
  match (Http.Target.path? request.target).bind resource?, server.mode with
  | none, _ => (state, .ok (.ofStatus 404))
  | some .capsules, .put =>
    if request.method = "POST" then server.create request now draws state
    else (state, .ok (.notAllowed "POST"))
  | some (.capsule segment), .get =>
    if request.method = "GET" ∨ request.method = "HEAD" then releaseTo caller state segment
    else (state, .ok (.notAllowed "GET,HEAD"))
  | some (.capsule _), .put | some .capsules, .get => (state, .error .notServed)

def respondTo : ServerState × Http.Response :=
  ((server.answerTo caller request now draws state).1,
    shown request (server.answerTo caller request now draws state).2)

theorem release_eq_releaseTo (segment : List Char) :
    server.release request segment state =
      releaseTo (server.identity.identify request) state segment := by
  unfold release releaseTo
  cases server.identity.identify request with
  | none => rfl
  | some caller =>
      cases Bytes.toString? (Http.Target.unescaped segment) with
      | none => rfl
      | some id => rfl

/-- A server looks at the identity of a sender before all else, and at nothing more of it than the key. -/
theorem respond_eq_respondTo :
    server.respond request now draws state =
      server.respondTo (server.identity.identify request) request now draws state := by
  have answered : server.answer request now draws state =
      server.answerTo (server.identity.identify request) request now draws state := by
    unfold answer answerTo
    cases (Http.Target.path? request.target).bind resource? with
    | none => rfl
    | some resource =>
        cases resource with
        | capsules => cases server.mode <;> rfl
        | capsule segment =>
            cases server.mode with
            | put => rfl
            | get => simp only [release_eq_releaseTo]
  rw [respond_eq, answered, respondTo]

/-- The headers that a server reads for itself, whoever sends the request. -/
def fieldsRead : List String :=
  match (Http.Target.path? request.target).bind resource?, server.mode with
  | some .capsules, .put => if request.method = "POST" then ["content-type", expiryHeader] else []
  | _, _ => []

variable {server request} {other : Http.Request}

theorem create_congr (body : other.body = request.body)
    (type : other.header? "content-type" = request.header? "content-type")
    (expiry : other.header? expiryHeader = request.header? expiryHeader) :
    server.create other now draws state = server.create request now draws state := by
  have json : isJsonRequest other = isJsonRequest request := by rw [isJsonRequest, type, isJsonRequest]
  have read : readCapsule other = readCapsule request := by
    rw [readCapsule, json, body, readCapsule]
  have asked : requestedExpiry other = requestedExpiry request := by
    simp only [requestedExpiry, expiry]
  simp only [create, read, asked]

theorem fieldsRead_of_post
    (named : (Http.Target.path? request.target).bind resource? = some .capsules)
    (put : server.mode = .put) (posted : request.method = "POST") :
    server.fieldsRead request = ["content-type", expiryHeader] := by
  rw [fieldsRead, named, put]
  exact if_pos posted

/-- When it is settled who sends a request, headers that the server does not read make no difference. -/
theorem respondTo_congr {name : String} (same : other.without name = request.without name)
    (apart : ∀ field ∈ server.fieldsRead request, Http.folded field ≠ Http.folded name) :
    server.respondTo caller other now draws state =
      server.respondTo caller request now draws state := by
  have method : other.method = request.method := (congrArg Http.Request.method same :)
  have target : other.target = request.target := (congrArg Http.Request.target same :)
  have body : other.body = request.body := (congrArg Http.Request.body same :)
  have read (field : String) (member : field ∈ server.fieldsRead request) :
      other.header? field = request.header? field := by
    calc other.header? field
      _ = (other.without name).header? field :=
        (other.header?_without_of_ne (apart field member)).symm
      _ = (request.without name).header? field := by rw [same]
      _ = request.header? field := request.header?_without_of_ne (apart field member)
  have answered : server.answerTo caller other now draws state =
      server.answerTo caller request now draws state := by
    unfold answerTo
    rw [method, target]
    cases named : (Http.Target.path? request.target).bind resource? with
    | none => rfl
    | some resource =>
        cases put : server.mode with
        | get => cases resource <;> rfl
        | put =>
            cases resource with
            | capsule segment => rfl
            | capsules =>
                -- Here alone the server reads headers of its own.
                by_cases posted : request.method = "POST"
                · rw [fieldsRead_of_post named put posted] at read
                  simp only [if_pos posted]
                  exact create_congr now draws state body (read _ (by simp)) (read _ (by simp))
                · simp only [if_neg posted]
  simp only [respondTo, shown, answered, method]

/--
A header with an identity that nothing vouches for is as good as none. If the header is not trusted,
neither it nor its value makes a difference, and a server that gives capsules out refuses everybody
and leaves its storage alone, with the faults that would meet the next call. If it is trusted, a
sender that it names is answered by its key alone, and a request that it names nobody for is
answered as if it were not there. To take a capsule the server reads other headers too, whoever
sends it, and the header with the identity must not have the name of one of these.
-/
theorem unvouched_as_anonymous (server : CapsuleServer) (request : Http.Request) (now : Instant)
    (draws : Draws) (state : ServerState) :
    let source := server.identity
    let apart := ∀ field ∈ server.fieldsRead request, Http.folded field ≠ Http.folded source.header
    (source.trusted = false →
      (apart → ∀ other, other.without source.header = request.without source.header →
        server.respond other now draws state = server.respond request now draws state) ∧
      ∀ segment, server.mode = .get → request.method = "GET" →
        (Http.Target.path? request.target).bind resource? = some (.capsule segment) →
        server.respond request now draws state = (state, ApiError.unauthorized.response)) ∧
    (source.trusted = true →
      (∀ key, source.Names request key →
        server.respond request now draws state =
          server.respondTo (some key) request now draws state) ∧
      ((∀ key, ¬ source.Names request key) → apart →
        server.respond request now draws state =
          server.respond (request.without source.header) now draws state)) := by
  intro source apart
  have settled (r : Http.Request) (caller : Option PublicKey) (known : source.identify r = caller) :
      server.respond r now draws state = server.respondTo caller r now draws state := by
    rw [respond_eq_respondTo, known]
  constructor
  · intro untrusted
    have nobody (r : Http.Request) := settled r none (IdentitySource.identify_eq_none (.inl untrusted))
    constructor
    · intro separate other same
      rw [nobody other, nobody request]
      exact respondTo_congr none now draws state same separate
    · intro segment get asked named
      rw [nobody request]
      simp only [respondTo, answerTo, named, get, asked, true_or, if_true, releaseTo, shown]
      rfl
  · intro trusted
    constructor
    · intro key named
      exact settled request (some key) (IdentitySource.identify_eq_some_iff.mpr ⟨trusted, named⟩)
    · intro nameless separate
      have headless (key : PublicKey) : ¬ source.Names (request.without source.header) key := by
        intro named
        obtain ⟨value, first, spelled⟩ := named
        -- No header of the name is left that could spell a key.
        rw [request.header?_without_self] at first
        cases first
      rw [settled request none (IdentitySource.identify_eq_none (.inr nameless)),
        settled _ none (IdentitySource.identify_eq_none (.inr headless))]
      apply Eq.symm
      exact respondTo_congr none now draws state (request.without_without _) separate

def withField (request : Http.Request) (name value : String) : Http.Request :=
  { request with headers := (name, Bytes.ofString value) :: request.headers }

/--
The small capsule is taken from a sender who claims to be somebody. The small record is given to its
recipient where the claim is trusted, to nobody where it is not, and not for a claim that is no key.
-/
theorem smallKey_vouched_for :
    let source : Bool → IdentitySource := fun trusted => ⟨trusted, "x-client-key"⟩
    let get : Bool → CapsuleServer := fun trusted => ⟨.get, .standard, source trusted⟩
    let put : CapsuleServer := ⟨.put, .standard, source false⟩
    let draws : Draws := fun _ => .ok (List.replicate 16 9)
    let kept : ServerState := ⟨.ofStore ownStore, .zero⟩
    let asked := smallGet smallRecord.id
    let posed := withField (asked.without "x-client-key") "X-Client-Key" "MBow"
    let answer := (get true).respondTo (some (.rsa Service.smallKey)) asked .first draws kept
    put.respond (withField smallPost "X-Client-Key" "MBow") .last draws ⟨.ofStore .empty, .zero⟩ =
        put.respond smallPost .last draws ⟨.ofStore .empty, .zero⟩ ∧
      (get false).respond asked .first draws kept = (kept, ApiError.unauthorized.response) ∧
      (get true).respond asked .first draws kept = answer ∧ answer.2.status = 200 ∧
      (get true).respond posed .first draws kept =
        (get true).respond (posed.without "x-client-key") .first draws kept := by
  intro source get put draws kept asked posed answer
  have known : (source true).identify asked = some (.rsa Service.smallKey) := by decide +kernel
  have unknown : (source true).identify posed = none := by decide +kernel
  have posted := unvouched_as_anonymous put smallPost .last draws ⟨.ofStore .empty, .zero⟩
  have refused := unvouched_as_anonymous (get false) asked .first draws kept
  have given := unvouched_as_anonymous (get true) asked .first draws kept
  have hidden := unvouched_as_anonymous (get true) posed .first draws kept
  refine ⟨?_, ?_, ?_, by decide +kernel, ?_⟩
  · exact (posted.1 rfl).1 (by decide +kernel) _ (by decide +kernel)
  · exact (refused.1 rfl).2 smallRecord.id.toList rfl rfl (by decide +kernel)
  · exact (given.2 rfl).1 _ (IdentitySource.identify_eq_some_iff.mp known).2
  · apply (hidden.2 rfl).2
    · intro key named
      rw [IdentitySource.identify_eq_some_iff.mpr ⟨rfl, named⟩] at unknown
      cases unknown
    · decide +kernel

/--
A header that is not trusted, under the name of one that the server reads for itself: it does make a
difference whether the small capsule comes with it.
-/
theorem expiry_as_identity :
    let server : CapsuleServer := ⟨.put, .standard, ⟨false, expiryHeader⟩⟩
    let plain := smallPost.without expiryHeader
    let marked := withField plain expiryHeader "never"
    let draws : Draws := fun _ => .ok (List.replicate 16 9)
    marked.without expiryHeader = plain.without expiryHeader ∧
      (server.respond marked .last draws ⟨.ofStore .empty, .zero⟩).2.status = 400 ∧
      (server.respond plain .last draws ⟨.ofStore .empty, .zero⟩).2.status = 201 := by
  decide +kernel

end CapsuleServer

end SealedContainer
