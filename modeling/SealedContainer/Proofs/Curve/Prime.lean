import Mathlib.NumberTheory.LucasPrimality
import SealedContainer.Curve

/-!
The numbers that the coordinates of a curve are reduced by are primes. Main statement:
`prime_prime`. The proof is by certificates: a prime has an element whose powers run through all
residues but zero, and that this element does so is seen from the divisors of the number before the
prime, which have certificates of their own unless they are small.
-/

namespace SealedContainer.Curve

theorem powMod_eq (m : Nat) {fuel exponent : Nat} (base : Nat) (bounded : exponent < 2 ^ fuel) :
    powMod m fuel base exponent = base ^ exponent % m := by
  induction fuel generalizing base exponent with
  | zero =>
      obtain rfl : exponent = 0 := by simpa using bounded
      simp [powMod]
  | succ fuel ih =>
      have half : exponent / 2 < 2 ^ fuel := by
        rw [Nat.pow_succ] at bounded
        omega
      have squares : (base * base % m) ^ (exponent / 2) % m = base ^ (2 * (exponent / 2)) % m := by
        rw [← Nat.pow_mod, ← Nat.pow_two, ← Nat.pow_mul]
      simp only [powMod, ih _ half, squares]
      split
      next odd =>
        have split : exponent = 2 * (exponent / 2) + 1 := by omega
        calc base * (base ^ (2 * (exponent / 2)) % m) % m
          _ = base ^ (2 * (exponent / 2) + 1) % m := by
            rw [Nat.mul_mod_mod, Nat.pow_succ, Nat.mul_comm]
          _ = base ^ exponent % m := by rw [← split]
      next even =>
        have split : exponent = 2 * (exponent / 2) := by omega
        rw [← split]

/-- A number with an element whose powers are to be all residues but zero, and the prime divisors of
the number before it, each as often as it divides. -/
structure Certificate where
  number : Nat
  element : Nat
  divisors : List Nat

namespace Certificate

def power (c : Certificate) (exponent : Nat) : Nat :=
  powMod c.number (Nat.log2 c.number + 1) c.element exponent

def isSmallPrime (n : Nat) : Bool :=
  2 ≤ n && (List.range' 2 (Nat.sqrt n - 1)).all fun d => n % d ≠ 0

def holds (known : List Nat) (c : Certificate) : Bool :=
  c.divisors.prod = c.number - 1 && c.power (c.number - 1) = 1 % c.number &&
    c.divisors.all fun q =>
      (known.contains q || isSmallPrime q) && c.power ((c.number - 1) / q) ≠ 1 % c.number

def allHold : (known : List Nat) → List Certificate → Bool
  | _, [] => true
  | known, c :: rest => c.holds known && allHold (c.number :: known) rest

theorem prime_of_isSmallPrime {n : Nat} (small : isSmallPrime n = true) : n.Prime := by
  simp only [isSmallPrime, Bool.and_eq_true, decide_eq_true_eq, List.all_eq_true,
    List.mem_range'_1] at small
  apply Nat.prime_def_le_sqrt.mpr
  refine ⟨small.1, ?_⟩
  intro d least most divides
  exact small.2 d ⟨least, by omega⟩ (Nat.mod_eq_zero_of_dvd divides)

theorem pow_eq_one_iff (c : Certificate) {exponent : Nat} (below : exponent ≤ c.number) :
    (c.element : ZMod c.number) ^ exponent = 1 ↔ c.power exponent = 1 % c.number := by
  have bounded : exponent < 2 ^ (Nat.log2 c.number + 1) :=
    Nat.lt_of_le_of_lt below Nat.lt_log2_self
  rw [power, powMod_eq _ _ bounded, ← Nat.cast_pow, ← Nat.cast_one, ZMod.natCast_eq_natCast_iff']

theorem prime_of_holds {known : List Nat} {c : Certificate} (primes : ∀ q ∈ known, q.Prime)
    (holds : c.holds known = true) : c.number.Prime := by
  simp only [Certificate.holds, Bool.and_eq_true, decide_eq_true_eq, List.all_eq_true,
    Bool.or_eq_true, List.contains_iff_mem] at holds
  obtain ⟨⟨product, full⟩, partly⟩ := holds
  apply lucas_primality c.number c.element
  · exact (c.pow_eq_one_iff (Nat.sub_le _ _)).mpr full
  · intro q prime divides
    rw [← product] at divides
    obtain ⟨r, member, divides⟩ := (Prime.dvd_prod_iff prime.prime).mp divides
    obtain ⟨known, proper⟩ := partly r member
    have prime' : r.Prime := known.elim (primes r) prime_of_isSmallPrime
    obtain rfl := (Nat.prime_dvd_prime_iff_eq prime prime').mp divides
    intro one
    exact proper ((c.pow_eq_one_iff (Nat.le_trans (Nat.div_le_self _ _) (Nat.sub_le _ _))).mp one)

theorem prime_of_allHold {known : List Nat} {list : List Certificate}
    (primes : ∀ q ∈ known, q.Prime) (hold : allHold known list = true) :
    ∀ c ∈ list, c.number.Prime := by
  induction list generalizing known with
  | nil => exact List.forall_mem_nil _
  | cons c rest ih =>
      simp only [allHold, Bool.and_eq_true] at hold
      have first := prime_of_holds primes hold.1
      have others := ih (List.forall_mem_cons.mpr ⟨first, primes⟩) hold.2
      exact List.forall_mem_cons.mpr ⟨first, others⟩

end Certificate

def certificates : Curve → List Certificate
  | secp256r1 => [
    ⟨6700417, 5, [2, 2, 2, 2, 2, 2, 2, 3, 17449]⟩,
    ⟨204061199, 11, [2, 11, 23, 107, 3769]⟩,
    ⟨34282281433, 17, [2, 2, 2, 3, 7, 204061199]⟩,
    ⟨66417393611, 6, [2, 5, 53, 173, 197, 3677]⟩,
    ⟨11290956913871, 13, [2, 5, 17, 66417393611]⟩,
    ⟨46076956964474543, 5, [2, 23, 18169, 78283, 704251]⟩,
    ⟨774023187263532362759620327192479577272145303, 3, [2, 3, 3, 2411, 34282281433,
      11290956913871, 46076956964474543]⟩,
    ⟨835945042244614951780389953367877943453916927241, 11, [2, 2, 2, 3, 3, 3, 5,
      774023187263532362759620327192479577272145303]⟩,
    ⟨115792089210356248762697446949407573530086143415290314195533631308867097853951, 6, [2, 3, 5,
      5, 17, 257, 641, 1531, 65537, 490463, 6700417,
      835945042244614951780389953367877943453916927241]⟩]
  | secp384r1 => [
    ⟨2862218959, 3, [2, 3, 157, 1373, 2213]⟩,
    ⟨807145746439, 3, [2, 3, 47, 2862218959]⟩,
    ⟨513928823, 5, [2, 11, 59, 599, 661]⟩,
    ⟨53448597593, 3, [2, 2, 2, 13, 513928823]⟩,
    ⟨1357291859799823621, 2, [2, 2, 3, 5, 67, 6317, 53448597593]⟩,
    ⟨105957871, 3, [2, 3, 5, 19, 211, 881]⟩,
    ⟨246608641, 19, [2, 2, 2, 2, 2, 2, 2, 2, 3, 3, 5, 21407]⟩,
    ⟨529709925838459440593, 3, [2, 2, 2, 2, 7, 181, 105957871, 246608641]⟩,
    ⟨6051631, 6, [2, 3, 5, 13, 59, 263]⟩,
    ⟨532247449, 7, [2, 2, 2, 3, 61, 363557]⟩,
    ⟨44925942675193, 5, [2, 2, 2, 3, 3517, 532247449]⟩,
    ⟨35581458644053887931343, 5, [2, 17, 41, 568151, 44925942675193]⟩,
    ⟨23964610537191310276190549303, 5, [2, 336757, 35581458644053887931343]⟩,
    ⟨862725979338887169942859774909, 2, [2, 2, 3, 3, 23964610537191310276190549303]⟩,
    ⟨20705423504133292078628634597817, 5, [2, 2, 2, 3, 862725979338887169942859774909]⟩,
    ⟨413244619895455989650825325680172591660047, 5, [2, 17, 97, 6051631,
      20705423504133292078628634597817]⟩,
    ⟨12397338596863679689524759770405177749801411, 2, [2, 3, 5,
      413244619895455989650825325680172591660047]⟩,
    ⟨19173790298027098165721053155794528970226934547887232785722672956982046098136719667167519737147526097,
      3, [2, 2, 2, 2, 11, 11, 11, 8389, 38557, 312289, 1357291859799823621, 529709925838459440593,
      12397338596863679689524759770405177749801411]⟩,
    ⟨39402006196394479212279040100143613805079739270465446667948293404245721771496870329047266088258938001861606973112319,
      19, [2, 19, 67, 807145746439,
      19173790298027098165721053155794528970226934547887232785722672956982046098136719667167519737147526097]⟩]

theorem prime_prime (c : Curve) : c.prime.Prime := by
  have hold : Certificate.allHold [] c.certificates = true := by cases c <;> decide +kernel
  have primes := Certificate.prime_of_allHold (List.forall_mem_nil _) hold
  have last : c.prime ∈ c.certificates.map Certificate.number := by cases c <;> decide +kernel
  obtain ⟨certificate, member, same⟩ := List.mem_map.mp last
  exact same ▸ primes certificate member

end SealedContainer.Curve
