import GuideCheck.Proofs.Compilation
import GuideCheck.Proofs.Governing
import GuideCheck.Proofs.NormalForm
import GuideCheck.Proofs.Rounding
import GuideCheck.Proofs.TreeProblems

set_option autoImplicit false

/-! # Integer bounds and the doubles next to them

Integers are compared as doubles where they meet a bound: the maximum and the minimum of a schema,
and the limits of the spacing in a component tree. Doubles are whole numbers of very small units,
but the double of an integer is an integer again, and which one does not depend on the units
(`Double.nearest_mul_one`). So the comparisons are ones of integers with at most 53 binary digits
(`Double.ofInt_lt_ofInt_iff`), of which no other is nearer (`Double.isNearest_nearestInt`).

Up to 2⁵³ an integer is its own double, and below 2⁶⁴ its double is at most 2¹⁰ away. The
comparisons are therefore exact unless both integers are large and close together
(`Double.nearestInt_lt_or_close`); that they are not exact there is `bounds_not_exact`. -/

namespace GuideCheck.Double

/-! ## Quotients -/

/-- A quotient of multiples is rounded like the quotient. -/
theorem roundDiv_mul_right (a b : Nat) {k : Nat} (h : 0 < k) :
    roundDiv (a * k) (b * k) = roundDiv a b := by
  have hremainder : 2 * (a % b * k) = 2 * (a % b) * k := (Nat.mul_assoc _ _ _).symm
  simp only [roundDiv, Nat.mul_div_mul_right a b h, Nat.mul_mod_mul_right k a b, hremainder,
    Nat.mul_lt_mul_right h]

/-- A quotient is rounded to the multiple below or to the one above, whichever is nearer. -/
theorem roundDiv_cases (a b : Nat) :
    roundDiv a b = a / b ∧ 2 * (a % b) ≤ b ∨ roundDiv a b = a / b + 1 ∧ b ≤ 2 * (a % b) := by
  simp only [roundDiv]
  split_ifs
  · exact Or.inl ⟨rfl, by omega⟩
  · exact Or.inr ⟨rfl, by omega⟩
  · rcases Nat.mod_two_eq_zero_or_one (a / b) with heven | hodd
    · exact Or.inl ⟨by omega, by omega⟩
    · exact Or.inr ⟨by omega, by omega⟩

/-- Rounding goes no further than half a step. -/
theorem roundDiv_bounds (a : Nat) {b : Nat} (h : 0 < b) :
    2 * (roundDiv a b * b) ≤ 2 * a + b ∧ 2 * a ≤ 2 * (roundDiv a b * b) + b := by
  have hsplit := Nat.div_add_mod' a b
  have hmod := Nat.mod_lt a h
  rcases roundDiv_cases a b with ⟨heq, hle⟩ | ⟨heq, hle⟩
  · rw [heq]
    omega
  · rw [heq, Nat.add_mul, Nat.one_mul]
    omega

/-! ## Natural numbers -/

/-- The whole number nearest to `n` among those with at most 53 binary digits. -/
def nearestNat (n : Nat) : Nat := nearest n 1

theorem nearestNat_eq (n : Nat) :
    nearestNat n = roundDiv n (2 ^ spill n) * 2 ^ spill n := by
  rw [nearestNat, nearest_eq, Nat.div_one, Nat.one_mul]

/-- What is at most 2⁵³ is a double itself. -/
theorem nearestNat_of_le {n : Nat} (h : n ≤ 2 ^ 53) : nearestNat n = n := by
  rcases Nat.lt_or_eq_of_le h with hlt | rfl
  · have hspill : spill n = 0 := by
      by_contra hne
      have hge := two_pow_spill_le (Nat.pos_of_ne_zero hne)
      have hpow : 2 ^ 53 ≤ 2 ^ (52 + spill n) := Nat.pow_le_pow_right (by decide) (by omega)
      omega
    rw [nearestNat_eq, hspill, Nat.pow_zero, Nat.mul_one]
    simpa using roundDiv_mul Nat.one_pos n
  · decide +kernel

/-- A step between doubles below 2⁶⁴ is no more than 2¹¹. -/
theorem two_pow_spill_le_of_lt {n : Nat} (h : n < 2 ^ 64) : 2 ^ spill n ≤ 2 ^ 11 := by
  refine Nat.pow_le_pow_right (by decide) ?_
  by_contra hlt
  have hge := two_pow_spill_le (n := n) (by omega)
  have hpow : 2 ^ 64 ≤ 2 ^ (52 + spill n) := Nat.pow_le_pow_right (by decide) (by omega)
  omega

/-- Below 2⁶⁴ the nearest double is no further away than 2¹⁰. -/
theorem nearestNat_bounds {n : Nat} (h : n < 2 ^ 64) :
    nearestNat n ≤ n + 2 ^ 10 ∧ n ≤ nearestNat n + 2 ^ 10 := by
  have hstep := two_pow_spill_le_of_lt h
  have hround := roundDiv_bounds n (Nat.two_pow_pos (spill n))
  rw [← nearestNat_eq] at hround
  omega

theorem log2_mul_two_pow {n : Nat} (h : n ≠ 0) (k : Nat) : (n * 2 ^ k).log2 = n.log2 + k := by
  induction k with
  | zero => rw [Nat.pow_zero, Nat.mul_one, Nat.add_zero]
  | succ k ih =>
    have hne : n * 2 ^ k ≠ 0 := Nat.mul_ne_zero h (Nat.two_pow_pos k).ne'
    rw [Nat.pow_succ, ← Nat.mul_assoc, Nat.mul_comm, Nat.log2_two_mul hne, ih, Nat.add_assoc]

/-- In finer units, numbers are rounded to the same doubles. -/
theorem nearest_mul_two_pow (n k : Nat) : nearest (n * 2 ^ k) 1 = nearestNat n * 2 ^ k := by
  by_cases hzero : n = 0
  · subst hzero
    simp [nearest, nearestNat, roundDiv]
  have hlog := log2_mul_two_pow hzero k
  rw [nearest_eq, Nat.div_one, Nat.one_mul]
  rcases Nat.lt_or_ge n (2 ^ 53) with hlt | hge
  · -- a step is at most one there, so that the number lies on the grid
    have hspill : spill (n * 2 ^ k) ≤ k := by
      have hsmall : n.log2 < 53 := (Nat.log2_lt hzero).2 hlt
      unfold spill
      omega
    obtain ⟨j, hj⟩ : 2 ^ spill (n * 2 ^ k) ∣ n * 2 ^ k :=
      Nat.dvd_mul_left_of_dvd (Nat.pow_dvd_pow 2 hspill) n
    rw [nearestNat_of_le (Nat.le_of_lt hlt)]
    generalize spill (n * 2 ^ k) = step at hj ⊢
    rw [hj, Nat.mul_comm (2 ^ step) j, roundDiv_mul (Nat.two_pow_pos step)]
  · -- a step is as many units as it is between whole numbers
    have hspill : spill (n * 2 ^ k) = spill n + k := by
      have hlarge : 53 ≤ n.log2 := (Nat.le_log2 hzero).2 hge
      unfold spill
      omega
    rw [nearestNat_eq, hspill, Nat.pow_add, roundDiv_mul_right _ _ (Nat.two_pow_pos k),
      Nat.mul_assoc]

theorem nearest_mul_one (n : Nat) : nearest (n * one) 1 = nearestNat n * one := by
  have hone : one = 2 ^ 1074 := by decide +kernel
  rw [hone, nearest_mul_two_pow]

/-! ## The nearest double -/

/-- Whether a whole number is a double: it has at most 53 binary digits besides trailing zeros. -/
def IsWholeDouble (x : Nat) : Prop := ∃ digits zeros : Nat, digits ≤ 2 ^ 53 ∧ x = digits * 2 ^ zeros

theorem isWholeDouble_nearestNat (n : Nat) : IsWholeDouble (nearestNat n) := by
  have hle : nearestNat n ≤ 2 ^ 53 * 2 ^ spill n := by
    have h := nearest_le_two_pow (a := n) Nat.one_pos
    rwa [Nat.div_one, Nat.pow_add] at h
  rw [nearestNat_eq] at hle ⊢
  exact ⟨_, _, Nat.le_of_mul_le_mul_right hle (Nat.two_pow_pos _), rfl⟩

/-- No multiple of the divisor is nearer than the one that a quotient is rounded to. -/
theorem roundDiv_nearest (a : Nat) {b : Nat} (h : 0 < b) (k : Nat) :
    ((roundDiv a b * b : Nat) - a : Int).natAbs ≤ ((k * b : Nat) - a : Int).natAbs := by
  have hsplit := Nat.div_add_mod' a b
  have hmod := Nat.mod_lt a h
  -- the other multiple is at most the one below the number or at least the one above
  have hother : k * b ≤ a / b * b ∨ a / b * b + b ≤ k * b := by
    rcases Nat.lt_or_ge (a / b) k with hlt | hge
    · right
      rw [← Nat.succ_mul]
      exact Nat.mul_le_mul_right b hlt
    · exact Or.inl (Nat.mul_le_mul_right b hge)
  rcases roundDiv_cases a b with ⟨heq, hle⟩ | ⟨heq, hle⟩
  · rw [heq]
    omega
  · rw [heq, Nat.add_mul, Nat.one_mul]
    omega

/-- A double that is not below the least number with this step is a multiple of the step. -/
theorem IsWholeDouble.dvd {x step : Nat} (h : IsWholeDouble x) (hge : 2 ^ (52 + step) ≤ x) :
    2 ^ step ∣ x := by
  obtain ⟨digits, zeros, hdigits, rfl⟩ := h
  rcases Nat.lt_or_ge zeros step with hlt | hle
  · -- there is one zero less, and the digits are those of a power of two
    have hpow : 2 ^ (52 + step) = 2 ^ (52 + (step - zeros)) * 2 ^ zeros := by
      rw [← Nat.pow_add]
      congr 1
      omega
    rw [hpow] at hge
    have hmany := Nat.le_of_mul_le_mul_right hge (Nat.two_pow_pos zeros)
    have hone : step - zeros = 1 := by
      have hexp := (Nat.pow_le_pow_iff_right (by decide : 1 < 2)).1 (Nat.le_trans hmany hdigits)
      omega
    rw [hone] at hmany
    rw [Nat.le_antisymm hdigits hmany, ← Nat.pow_add]
    exact Nat.pow_dvd_pow 2 (by omega)
  · exact Nat.dvd_mul_left_of_dvd (Nat.pow_dvd_pow 2 hle) digits

/-- **No double is nearer to a number than the one it is rounded to.** -/
theorem nearestNat_nearest (n : Nat) {x : Nat} (h : IsWholeDouble x) :
    ((nearestNat n : Int) - n).natAbs ≤ ((x : Int) - n).natAbs := by
  have hmultiple (k : Nat) :
      ((nearestNat n : Int) - n).natAbs ≤ ((k * 2 ^ spill n : Nat) - n : Int).natAbs := by
    rw [nearestNat_eq]
    exact roundDiv_nearest n (Nat.two_pow_pos _) k
  rcases Nat.eq_zero_or_pos (spill n) with hzero | hpos
  · have hself := hmultiple n
    rw [hzero, Nat.pow_zero, Nat.mul_one] at hself
    omega
  · have hge := two_pow_spill_le hpos
    rcases Nat.lt_or_ge x (2 ^ (52 + spill n)) with hlt | hle
    · -- the least number with the step of `n` is nearer
      have hleast := hmultiple (2 ^ 52)
      rw [← Nat.pow_add] at hleast
      omega
    · obtain ⟨k, hk⟩ := h.dvd hle
      have hother := hmultiple k
      rwa [Nat.mul_comm k, ← hk] at hother

/-! ## Integers -/

/-- The integer nearest to `n` among those that are doubles. -/
def nearestInt (n : Int) : Int :=
  if n < 0 then -(nearestNat n.natAbs : Int) else nearestNat n.natAbs

theorem value_ofInt_eq (n : Int) : (ofInt n).value = nearestInt n * one := by
  rw [value_ofInt, nearestInt, nearest_mul_one]
  split_ifs
  · rw [Int.neg_mul, Int.natCast_mul]
  · rw [Int.natCast_mul]

theorem ofInt_lt_ofInt_iff (m n : Int) : ofInt m < ofInt n ↔ nearestInt m < nearestInt n := by
  have hone : (0 : Int) < one := by exact_mod_cast one_pos
  show (ofInt m).value < (ofInt n).value ↔ _
  rw [value_ofInt_eq, value_ofInt_eq]
  exact Int.mul_lt_mul_right hone

theorem nearestInt_of_le {n : Int} (h : n.natAbs ≤ 2 ^ 53) : nearestInt n = n := by
  rw [nearestInt, nearestNat_of_le h]
  split_ifs <;> omega

theorem nearestInt_mono {m n : Int} (h : m ≤ n) : nearestInt m ≤ nearestInt n := by
  by_contra hlt
  have hle : ofInt m ≤ ofInt n := ofInt_mono h
  exact absurd hle (Int.not_le.2 ((ofInt_lt_ofInt_iff n m).2 (Int.not_le.1 hlt)))

/-- Whether an integer is a double that is nearest to another integer. -/
structure IsNearest (n r : Int) : Prop where
  isDouble : IsWholeDouble r.natAbs
  nearest : ∀ x : Int, IsWholeDouble x.natAbs → (r - n).natAbs ≤ (x - n).natAbs

theorem isNearest_nearestInt (n : Int) : IsNearest n (nearestInt n) where
  isDouble := by
    have hsize : (nearestInt n).natAbs = nearestNat n.natAbs := by
      rw [nearestInt]
      split_ifs <;> omega
    exact hsize ▸ isWholeDouble_nearestNat n.natAbs
  nearest := fun x hx => by
    have hnear := nearestNat_nearest n.natAbs hx
    rw [nearestInt]
    split_ifs <;> omega

/-- Integers in order have doubles in order, unless both lie far from zero and close together. -/
theorem nearestInt_lt_or_close {m n : Int} (hm : m.natAbs < 2 ^ 64) (hn : n.natAbs < 2 ^ 64)
    (hlt : m < n) :
    nearestInt m < nearestInt n ∨
      2 ^ 53 ≤ m.natAbs ∧ 2 ^ 53 ≤ n.natAbs ∧ n - m ≤ 2 ^ 11 := by
  have hmono := nearestInt_mono (Int.le_of_lt hlt)
  by_cases hmsmall : m.natAbs < 2 ^ 53
  · -- the next integer is a double too, and `n` is not below it
    have hself := nearestInt_of_le (Nat.le_of_lt hmsmall)
    have hnext := nearestInt_of_le (n := m + 1) (by omega)
    have hle := nearestInt_mono (m := m + 1) hlt
    omega
  by_cases hnsmall : n.natAbs < 2 ^ 53
  · have hself := nearestInt_of_le (Nat.le_of_lt hnsmall)
    have hprevious := nearestInt_of_le (n := n - 1) (by omega)
    have hle := nearestInt_mono (n := n - 1) (Int.le_sub_one_of_lt hlt)
    omega
  · have hmbounds := nearestNat_bounds hm
    have hnbounds := nearestNat_bounds hn
    rw [nearestInt, nearestInt] at hmono ⊢
    split_ifs at hmono ⊢ <;> omega

end GuideCheck.Double

namespace GuideCheck

/-! ## Bounds of a schema -/

namespace Schema

/-- Whether a check of a value reports a keyword. -/
def ReportsKeyword (schema : Schema) (value : Json) (keyword : String) : Prop :=
  ∃ v ∈ schema.validate value, v.keyword = keyword

instance (schema : Schema) (value : Json) (keyword : String) :
    Decidable (schema.ReportsKeyword value keyword) :=
  inferInstanceAs (Decidable (∃ v ∈ schema.validate value, v.keyword = keyword))

/-- A number of an allowed type has the violations of the two bounds. -/
theorem reportsKeyword_num_iff {r : SchemaRules Schema} {n : Number}
    (htype : r.allowsType (.num n) = true) (keyword : String) :
    (Schema.rules r).ReportsKeyword (.num n) keyword ↔
      (∃ limit, r.maximum = some limit ∧ limit.toDouble < n.toDouble ∧ "maximum" = keyword) ∨
        ∃ limit, r.minimum = some limit ∧ n.toDouble < limit.toDouble ∧ "minimum" = keyword := by
  have hfailures : (Schema.rules r).failures (.num n) = r.numberFailures n := by
    simp only [failures, htype, not_true_eq_false, if_false]
  simp only [ReportsKeyword, validate, hfailures, SchemaRules.numberFailures, List.mem_map,
    List.mem_append, mem_broken_iff, decide_eq_true_eq, exists_exists_and_eq_and]
  constructor
  · rintro ⟨f, ⟨limit, hlimit, hbroken, rfl⟩ | ⟨limit, hlimit, hbroken, rfl⟩, hkeyword⟩
    · exact Or.inl ⟨limit, hlimit, hbroken, hkeyword⟩
    · exact Or.inr ⟨limit, hlimit, hbroken, hkeyword⟩
  · rintro (⟨limit, hlimit, hbroken, hkeyword⟩ | ⟨limit, hlimit, hbroken, hkeyword⟩)
    · exact ⟨_, Or.inl ⟨limit, hlimit, hbroken, rfl⟩, hkeyword⟩
    · exact ⟨_, Or.inr ⟨limit, hlimit, hbroken, rfl⟩, hkeyword⟩

variable {engine : PatternEngine} {keywords : List (String × Json)} {schema : Schema} {m n : Int}

theorem reportsKeyword_maximum_iff (h : compile engine (.obj keywords) = .ok schema)
    (htype : AllowsType keywords (.num (.int n)))
    (hmax : keyword? "maximum" keywords = some (.num (.int m))) :
    schema.ReportsKeyword (.num (.int n)) "maximum" ↔
      Double.nearestInt m < Double.nearestInt n := by
  obtain ⟨r, rfl, hr⟩ := exists_reads h
  have hmaximum : r.maximum = some (.int m) := by simpa [hr.maximum] using hmax
  rw [reportsKeyword_num_iff ((hr.allowsType_iff _).2 htype), hmaximum,
    ← Double.ofInt_lt_ofInt_iff]
  simp [Number.toDouble]

theorem reportsKeyword_minimum_iff (h : compile engine (.obj keywords) = .ok schema)
    (htype : AllowsType keywords (.num (.int n)))
    (hmin : keyword? "minimum" keywords = some (.num (.int m))) :
    schema.ReportsKeyword (.num (.int n)) "minimum" ↔
      Double.nearestInt n < Double.nearestInt m := by
  obtain ⟨r, rfl, hr⟩ := exists_reads h
  have hminimum : r.minimum = some (.int m) := by simpa [hr.minimum] using hmin
  rw [reportsKeyword_num_iff ((hr.allowsType_iff _).2 htype), hminimum,
    ← Double.ofInt_lt_ofInt_iff]
  simp [Number.toDouble]

end Schema

/-! ## Bounds of spacings -/

namespace Component

/-- Whether a spacer has a bad spacing. -/
def Problem.isSpacing : Problem → Bool
  | spacing .. => true
  | _ => false

variable (limits : Limits)

theorem filter_isSpacing_kindProblems (position : Nat) (component : Json) :
    (kindProblems limits position component).filter Problem.isSpacing =
      problemIf (decide (component.HasCode 14) && badSpacing limits (component.get? "spacing"))
        (.spacing position limits.spacingMin limits.spacingMax) := by
  have hspacer : component.HasCode 14 ↔ component.kind? = some .spacer :=
    (component.kind?_eq_some_iff .spacer).symm
  rw [kindProblems]
  cases hkind : component.kind? with
  | none => simp [hspacer, hkind]
  | some kind =>
    cases kind with
    | textSection =>
      simp [hspacer, hkind, sectionTextProblems, List.filter_flatMap, filter_problemIf,
        Problem.isSpacing]
    | textDisplay => simp [hspacer, hkind, filter_problemIf, Problem.isSpacing]
    | mediaGallery =>
      simp only [galleryProblems]
      split
      · simp [hspacer, hkind, Problem.isSpacing]
      · simp [hspacer, hkind, List.filter_flatMap, filter_problemIf, Problem.isSpacing]
    | spacer => simp [hspacer, hkind, filter_problemIf, Problem.isSpacing]
    | actionRow | button | stringSelect | thumbnail | file | container => simp [hspacer, hkind]

theorem isSpacing_of_isOfContainers {p : Problem} (h : p.isOfContainers = true) :
    p.isSpacing = false := by
  cases p <;> first | rfl | cases h

/-- The warnings about spacings are one for each spacer with a bad one, in order. -/
theorem filter_isSpacing_check {payload : Json} {components : List Json}
    (h : payload.get? "components" = some (.arr components)) :
    (check limits payload).filter Problem.isSpacing =
      (components.zipIdx.filter fun entry =>
        decide (entry.1.HasCode 14) && badSpacing limits (entry.1.get? "spacing")).map
          fun entry => .spacing (entry.2 + 1) limits.spacingMin limits.spacingMax := by
  have hcontainers : (containerProblems limits 0 1 components).filter Problem.isSpacing = [] := by
    rw [containerProblems_eq, List.filter_eq_nil_iff]
    intro p hp
    obtain ⟨⟨component, index⟩, -, hp⟩ := List.mem_flatMap.1 hp
    have hcontainers := isOfContainers_containerReport limits _ _ component p hp
    simp [isSpacing_of_isOfContainers hcontainers]
  rw [check_eq limits h]
  simp only [List.filter_append, hcontainers, List.filter_flatMap, componentProblems,
    filter_isSpacing_kindProblems, flatMap_problemIf, filter_problemIf, Problem.isSpacing,
    Bool.and_false, problemIf_false, List.nil_append]

/-- Whether a spacer is warned about is settled by its spacing. -/
theorem spacing_mem_check_iff {payload : Json} {components : List Json}
    (h : payload.get? "components" = some (.arr components)) {index : Nat} {component : Json}
    (hcomponent : components[index]? = some component) (hspacer : component.HasCode 14) :
    .spacing (index + 1) limits.spacingMin limits.spacingMax ∈ check limits payload ↔
      badSpacing limits (component.get? "spacing") = true := by
  have hfilter (p : Problem) (hp : p.isSpacing = true) :
      p ∈ check limits payload ↔ p ∈ (check limits payload).filter Problem.isSpacing := by
    rw [List.mem_filter, hp, and_iff_left rfl]
  rw [hfilter _ rfl, filter_isSpacing_check limits h]
  simp only [List.mem_map, List.mem_filter, Prod.exists, List.mk_mem_zipIdx_iff_getElem?,
    Problem.spacing.injEq, and_true, Nat.add_right_cancel_iff, Bool.and_eq_true,
    decide_eq_true_eq]
  constructor
  · rintro ⟨other, i, ⟨hother, -, hbad⟩, rfl⟩
    rw [hcomponent, Option.some.injEq] at hother
    rwa [hother]
  · intro hbad
    exact ⟨component, index, ⟨hcomponent, hspacer, hbad⟩, rfl⟩

theorem badSpacing_int_iff {n : Int} (h : n ≠ 0) :
    badSpacing limits (some (.num (.int n))) = true ↔
      Double.nearestInt n < Double.nearestInt limits.spacingMin ∨
        Double.nearestInt limits.spacingMax < Double.nearestInt n := by
  have htruthy : Json.truthy (some (.num (.int n))) = true := by
    simp [Json.truthy, Json.isTrue, Number.isZero, h]
  rw [badSpacing, htruthy, ← Double.ofInt_lt_ofInt_iff, ← Double.ofInt_lt_ofInt_iff]
  simp only [Option.bind_some, Json.number?, Number.toDouble, Bool.not_true, Bool.false_or,
    Bool.or_eq_true]
  exact or_congr decide_eq_true_iff decide_eq_true_iff

end Component

/-! ## Exactness -/

/-- **Integer bounds are compared as doubles.** A number violates a maximum exactly if its nearest
    double is above that of the limit, and a minimum if it is below; a spacer is warned about if the
    double of its spacing is outside the doubles of the two limits. So what is reported is always
    out of bounds. What is out of bounds is reported unless it shares its double with the limit, and
    this can only be where both are at least 2⁵³ and no more than 2¹¹ apart. -/
theorem bounds_nearest {m n : Int} (hm : Number.IsAdmitted m) (hn : Number.IsAdmitted n) :
    (Double.IsNearest n (Double.nearestInt n) ∧
      (Double.nearestInt m < Double.nearestInt n → m < n) ∧
      (m < n → Double.nearestInt m < Double.nearestInt n ∨
        2 ^ 53 ≤ m.natAbs ∧ 2 ^ 53 ≤ n.natAbs ∧ n - m ≤ 2 ^ 11)) ∧
    (∀ (engine : PatternEngine) (keywords : List (String × Json)) (schema : Schema),
      Schema.compile engine (.obj keywords) = .ok schema →
      Schema.AllowsType keywords (.num (.int n)) →
      (Schema.keyword? "maximum" keywords = some (.num (.int m)) →
        (schema.ReportsKeyword (.num (.int n)) "maximum" ↔
          Double.nearestInt m < Double.nearestInt n)) ∧
      (Schema.keyword? "minimum" keywords = some (.num (.int m)) →
        (schema.ReportsKeyword (.num (.int n)) "minimum" ↔
          Double.nearestInt n < Double.nearestInt m))) ∧
    ∀ (limits : Limits) (payload : Json) (components : List Json) (index : Nat) (component : Json),
      payload.get? "components" = some (.arr components) →
      components[index]? = some component → component.HasCode 14 →
      component.get? "spacing" = some (.num (.int n)) → n ≠ 0 →
      (.spacing (index + 1) limits.spacingMin limits.spacingMax ∈ Component.check limits payload ↔
        Double.nearestInt n < Double.nearestInt limits.spacingMin ∨
          Double.nearestInt limits.spacingMax < Double.nearestInt n) := by
  refine ⟨⟨Double.isNearest_nearestInt n, fun hlt => ?_, fun hlt => ?_⟩, ?_, ?_⟩
  · by_contra hge
    have hmono := Double.nearestInt_mono (Int.not_lt.1 hge)
    omega
  · unfold Number.IsAdmitted at hm hn
    exact Double.nearestInt_lt_or_close (by omega) (by omega) hlt
  · intro engine keywords schema hcompile htype
    exact ⟨Schema.reportsKeyword_maximum_iff hcompile htype,
      Schema.reportsKeyword_minimum_iff hcompile htype⟩
  · intro limits payload components index component hpayload hcomponent hspacer hspacing hne
    rw [Component.spacing_mem_check_iff limits hpayload hcomponent hspacer, hspacing,
      Component.badSpacing_int_iff limits hne]

/-- A maximum and a spacing beyond 2⁵³, and numbers far enough above them. -/
theorem bounds_nearest_far :
    let m : Int := 2 ^ 53 + 1
    let n : Int := 2 ^ 53 + 3
    let engine : PatternEngine := fun source =>
      if source = "^a" then some fun text => text.toList.head? = some 'a' else none
    let keywords := [("maximum", Json.num (.int m)), ("pattern", .str "^a")]
    let spacer : Json := .obj [("spacing", .num (.int n)), ("type", .num (.int 14))]
    let payload : Json := .obj [("components", .arr [spacer]), ("type", .num (.int 17))]
    let limits : Limits := { spacingMax := 2 ^ 53 + 1 }
    (Number.IsAdmitted m ∧ Number.IsAdmitted n) ∧
      (∃ schema, Schema.compile engine (.obj keywords) = .ok schema ∧
        schema.ReportsKeyword (.num (.int n)) "maximum") ∧
      .spacing 1 limits.spacingMin limits.spacingMax ∈ Component.check limits payload := by
  intro m n engine keywords spacer payload limits
  have hm : Number.IsAdmitted m := by decide
  have hn : Number.IsAdmitted n := by decide
  have htype : Schema.AllowsType keywords (.num (.int n)) := by
    intro types htypes
    cases htypes
  have hlt : Double.nearestInt m < Double.nearestInt n := by decide +kernel
  obtain ⟨-, hbounds, hspacings⟩ := bounds_nearest hm hn
  refine ⟨⟨hm, hn⟩, ⟨_, rfl, ((hbounds engine keywords _ rfl htype).1 rfl).2 hlt⟩, ?_⟩
  exact (hspacings limits payload [spacer] 0 spacer rfl rfl (by decide +kernel) rfl (by decide)).2
    (Or.inr hlt)

/-- Two integers with one double: neither bound of a schema and no limit of spacings tells them
    apart. -/
theorem bounds_not_exact :
    let m : Int := 2 ^ 53
    let n : Int := 2 ^ 53 + 1
    let engine : PatternEngine := fun _ => none
    let payload (spacing : Int) : Json := .obj [("components", .arr [.obj [("spacing",
      .num (.int spacing)), ("type", .num (.int 14))]]), ("type", .num (.int 17))]
    (Number.IsAdmitted m ∧ Number.IsAdmitted n ∧ m < n) ∧
      (∃ schema, Schema.compile engine (.obj [("maximum", .num (.int m))]) = .ok schema ∧
        ¬ schema.ReportsKeyword (.num (.int n)) "maximum") ∧
      (∃ schema, Schema.compile engine (.obj [("minimum", .num (.int n))]) = .ok schema ∧
        ¬ schema.ReportsKeyword (.num (.int m)) "minimum") ∧
      Component.check { spacingMax := 2 ^ 53 } (payload n) = [] ∧
      Component.check { spacingMin := 2 ^ 53 + 1, spacingMax := 2 ^ 54 } (payload m) = [] := by
  intro m n engine payload
  refine ⟨by decide, ⟨_, rfl, ?_⟩, ⟨_, rfl, ?_⟩, ?_, ?_⟩
  · decide +kernel
  · decide +kernel
  · decide +kernel
  · decide +kernel

end GuideCheck
