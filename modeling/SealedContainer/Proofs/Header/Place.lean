import SealedContainer.Header.Table
import SealedContainer.Proofs.Bytes

/-!
Places in a buffer that grows at its front, counted from its end. What stands at a place stays
there when more is put in front, and the readers find it at the position that the place has in the
whole buffer.
-/

namespace SealedContainer.Header

/-- `x` stands in `h` where the last `place` bytes of `h` begin. -/
def At (h : Bytes) (place : Nat) (x : Bytes) : Prop :=
  ∃ front back : Bytes, h = front ++ (x ++ back) ∧ place = x.length + back.length

namespace At

variable {h : Bytes} {place : Nat} {x y : Bytes}

theorem head (x b : Bytes) : At (x ++ b) (x.length + b.length) x := ⟨[], b, rfl, rfl⟩

theorem mono {h' : Bytes} (at_ : At h place x) (grown : h <:+ h') : At h' place x := by
  rcases at_ with ⟨front, back, rfl, size⟩
  rcases grown with ⟨more, rfl⟩
  exact ⟨more ++ front, back, by simp, size⟩

theorem left (at_ : At h place (x ++ y)) : At h place x := by
  rcases at_ with ⟨front, back, rfl, size⟩
  refine ⟨front, y ++ back, by simp, ?_⟩
  rw [size, List.length_append, List.length_append, Nat.add_assoc]

theorem right (at_ : At h place (x ++ y)) : At h (place - x.length) y := by
  rcases at_ with ⟨front, back, rfl, size⟩
  refine ⟨front ++ x, back, by simp, ?_⟩
  rw [size, List.length_append]
  omega

theorem length_le (at_ : At h place x) : x.length ≤ place := by
  rcases at_ with ⟨_, back, _, size⟩
  omega

theorem place_le (at_ : At h place x) : place ≤ h.length := by
  rcases at_ with ⟨front, back, rfl, size⟩
  simp only [List.length_append]
  omega

theorem take_drop (at_ : At h place x) : (h.drop (h.length - place)).take x.length = x := by
  rcases at_ with ⟨front, back, rfl, size⟩
  have position : (front ++ (x ++ back)).length - place = front.length := by
    simp only [List.length_append]
    omega
  rw [position, List.drop_left, List.take_left]

theorem getElem? (at_ : At h place x) {i : Nat} (inside : i < x.length) :
    h[h.length - place + i]? = x[i]? := by
  have first := congrArg (·[i]?) at_.take_drop
  simpa [List.getElem?_take_of_lt inside] using first

end At

variable {h : Bytes} {place target : Nat}

theorem numberAt?_of_at {width n : Nat} (at_ : At h place (Bytes.ofNatLE width n))
    (fits : n < 256 ^ width) : numberAt? h width (h.length - place) = some n := by
  have field := at_.take_drop
  rw [Bytes.length_ofNatLE] at field
  rw [numberAt?, field, Bytes.length_ofNatLE]
  simp [Bytes.toNatLE_ofNatLE_of_lt fits]

theorem u8At?_of_at {value : UInt8} (at_ : At h place [value]) :
    u8At? h (h.length - place) = some value := by
  simpa [u8At?] using at_.getElem? (i := 0) (by simp)

structure BytesAt (h : Bytes) (place : Nat) (content : Bytes) : Prop where
  stored : At h place (Bytes.ofNatLE 4 content.length ++ content)
  aligned : place % 4 = 0
  fits : content.length < 2 ^ 32

structure TextAt (h : Bytes) (place : Nat) (text : String) : Prop where
  stored : At h place (Bytes.ofNatLE 4 (Bytes.ofString text).length ++ (Bytes.ofString text ++ [0]))
  aligned : place % 4 = 0
  fits : (Bytes.ofString text).length < 2 ^ 32

structure RefAt (h : Bytes) (place target : Nat) : Prop where
  stored : At h place (Bytes.ofNatLE 4 (place - target))
  aligned : place % 4 = 0
  forward : target < place
  fits : place - target < 2 ^ 32

theorem BytesAt.mono {h' content : Bytes} (at_ : BytesAt h place content) (grown : h <:+ h') :
    BytesAt h' place content :=
  ⟨at_.stored.mono grown, at_.aligned, at_.fits⟩

theorem TextAt.mono {h' : Bytes} {text : String} (at_ : TextAt h place text) (grown : h <:+ h') :
    TextAt h' place text :=
  ⟨at_.stored.mono grown, at_.aligned, at_.fits⟩

theorem RefAt.mono {h' : Bytes} (at_ : RefAt h place target) (grown : h <:+ h') :
    RefAt h' place target :=
  ⟨at_.stored.mono grown, at_.aligned, at_.forward, at_.fits⟩

theorem BytesAt.count {content : Bytes} (at_ : BytesAt h place content) :
    numberAt? h 4 (h.length - place) = some content.length :=
  numberAt?_of_at at_.stored.left at_.fits

theorem BytesAt.content {content : Bytes} (at_ : BytesAt h place content) :
    (h.drop (h.length - place + 4)).take content.length = content := by
  have behind := at_.stored.right
  have position : h.length - (place - 4) = h.length - place + 4 := by
    have low := at_.stored.length_le
    have high := at_.stored.place_le
    rw [List.length_append, Bytes.length_ofNatLE] at low
    omega
  have read := behind.take_drop
  rwa [Bytes.length_ofNatLE, position] at read

theorem bytesAt?_of_at {content : Bytes} (at_ : BytesAt h place content) :
    bytesAt? h (h.length - place) = some content := by
  have count : u32At? h (h.length - place) = some content.length := at_.count
  simp only [bytesAt?, count, Option.bind_eq_bind, Option.bind_some, at_.content, if_true]

theorem TextAt.bytes {text : String} (at_ : TextAt h place text) :
    BytesAt h place (Bytes.ofString text) := by
  have stored := at_.stored
  rw [← List.append_assoc] at stored
  exact ⟨stored.left, at_.aligned, at_.fits⟩

theorem TextAt.terminated {text : String} (at_ : TextAt h place text) :
    h[h.length - place + 4 + (Bytes.ofString text).length]? = some 0 := by
  have read := at_.stored.getElem? (i := 4 + (Bytes.ofString text).length) (by simp)
  simpa [Nat.add_assoc] using read

theorem followAt?_of_at (at_ : RefAt h place target) :
    followAt? h (h.length - place) = some (h.length - target) := by
  have number : u32At? h (h.length - place) = some (place - target) :=
    numberAt?_of_at at_.stored at_.fits
  have inside := at_.stored.place_le
  have forward := at_.forward
  simp only [followAt?, number, Option.bind_eq_bind, Option.bind_some, Option.pure_def,
    Option.some.injEq]
  omega

end SealedContainer.Header
