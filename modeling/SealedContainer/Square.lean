/-!
Words in four rows of four, and a mixing step applied to the columns and to the diagonals. The
stream cipher and both hash functions of this library that mix sixteen words do so.
-/

namespace SealedContainer

structure Row (α : Type) where
  x : α
  y : α
  z : α
  w : α
  deriving DecidableEq, Repr

namespace Row

variable {α β γ : Type}

def zipWith (f : α → β → γ) (a : Row α) (b : Row β) : Row γ :=
  ⟨f a.x b.x, f a.y b.y, f a.z b.z, f a.w b.w⟩

def turn (a : Row α) : Row α := ⟨a.y, a.z, a.w, a.x⟩

def toList (a : Row α) : List α := [a.x, a.y, a.z, a.w]

end Row

structure Square (α : Type) where
  a : Row α
  b : Row α
  c : Row α
  d : Row α
  deriving DecidableEq, Repr

namespace Square

variable {α : Type}

def toList (s : Square α) : List α := s.a.toList ++ s.b.toList ++ s.c.toList ++ s.d.toList

def zipWith (f : α → α → α) (s t : Square α) : Square α :=
  ⟨s.a.zipWith f t.a, s.b.zipWith f t.b, s.c.zipWith f t.c, s.d.zipWith f t.d⟩

def ofList (fill : α) (l : List α) : Square α :=
  let row (i : Nat) : Row α :=
    ⟨l.getD i fill, l.getD (i + 1) fill, l.getD (i + 2) fill, l.getD (i + 3) fill⟩
  ⟨row 0, row 4, row 8, row 12⟩

def columns (mix : Row (Row α → Row α)) (s : Square α) : Square α :=
  let p := mix.x ⟨s.a.x, s.b.x, s.c.x, s.d.x⟩
  let q := mix.y ⟨s.a.y, s.b.y, s.c.y, s.d.y⟩
  let r := mix.z ⟨s.a.z, s.b.z, s.c.z, s.d.z⟩
  let t := mix.w ⟨s.a.w, s.b.w, s.c.w, s.d.w⟩
  ⟨⟨p.x, q.x, r.x, t.x⟩, ⟨p.y, q.y, r.y, t.y⟩, ⟨p.z, q.z, r.z, t.z⟩, ⟨p.w, q.w, r.w, t.w⟩⟩

/--
Mixes each diagonal: row `i` is turned by `i`, the columns are mixed, and the rows turned back.
-/
def diagonals (mix : Row (Row α → Row α)) (s : Square α) : Square α :=
  let m := columns mix ⟨s.a, s.b.turn, s.c.turn.turn, s.d.turn.turn.turn⟩
  ⟨m.a, m.b.turn.turn.turn, m.c.turn.turn, m.d.turn⟩

end Square

end SealedContainer
