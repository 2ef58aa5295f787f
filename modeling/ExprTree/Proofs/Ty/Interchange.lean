import ExprTree.Proofs.Ty.Substitution

/-!
# Equivalent types are interchangeable

Equivalence is an equivalence relation, and a congruence for everything that is
asked of types and made of them: equivalent types accept equivalent sources
alike, are optional over equivalent types, are open alike, and stay equivalent
when equivalent arguments are put for their open parameters. Only the arguments
have to be types that closing makes: a union that is put into a larger one is
opened in either spelling unless the bare union form is among its members, and
the spelling with bars never has that form for a member.
-/

namespace ExprTree.Ty

/-- What closing makes of classes, the union form and open parameters. Anything may be closed, also what has arguments
already, and unions may be written with bars. -/
inductive Arises : Ty → Prop where
  | cls (c : ClassName) : Arises (.cls c)
  | union : Arises .union
  | parameter (p : Nat) (n : String) : Arises (.parameter p n)
  | close {o : Ty} {as : List Ty} (ho : Arises o) (has : ∀ a ∈ as, Arises a) : Arises (close o as)
  | bar {a b : Ty} (ha : Arises a) (hb : Arises b) (hna : a ≠ .union) (hnb : b ≠ .union) : Arises (barOf a b)

variable {t t' : Ty} {as bs : List Ty}

/-- A tidy type other than the bare union form does not give it to a larger union. -/
theorem Tidy.ne_union_of_unionMembers (h : Tidy t) (ht : t ≠ .union) : ∀ m ∈ Ty.unionMembers t, m ≠ .union := by
  have hform {ms : List Ty} (hms : ms.any isUnionForm = false) : ∀ m ∈ ms, m ≠ .union := by
    rintro _ hm rfl
    simpa [isUnionForm] using List.any_eq_false.mp hms _ hm
  intro m hm
  unfold Ty.unionMembers at hm
  split at hm
  · split at hm
    · obtain rfl := List.mem_singleton.mp hm
      simp
    · next ms hnone => exact hform (by simpa using hnone) m hm
  · exact hform (h.bars _ rfl) m hm
  · obtain rfl := List.mem_singleton.mp hm
    simp [nothing]
  · obtain rfl := List.mem_singleton.mp hm
    exact ht

theorem Tidy.barOf {a b : Ty} (ha : Tidy a) (hb : Tidy b) (hna : a ≠ .union) (hnb : b ≠ .union) :
    Tidy (Ty.barOf a b) := by
  have hmembers : ∀ m ∈ dedup (Ty.unionMembers a ++ Ty.unionMembers b), Tidy m ∧ m ≠ .union := by
    refine of_mem_dedup fun m hm => ?_
    obtain hm | hm := List.mem_append.mp hm
    · exact ⟨ha.unionMembers m hm, ha.ne_union_of_unionMembers hna m hm⟩
    · exact ⟨hb.unionMembers m hm, hb.ne_union_of_unionMembers hnb m hm⟩
  unfold Ty.barOf
  split
  · next m hm => exact (hmembers m (by simp [hm])).1
  · refine .intro ?_ fun m hm => (hmembers m hm).1
    rintro ms ⟨⟩
    rw [List.any_eq_false]
    intro m hm
    rw [isUnionForm_iff]
    exact (hmembers m hm).2

theorem Arises.tidy (h : Arises t) : Tidy t := by
  induction h with
  | cls c => exact .leaf rfl
  | union => exact .leaf rfl
  | parameter p n => exact .leaf rfl
  | @close o as _ _ iho ih =>
    by_cases hne : as = []
    · subst hne
      exact iho
    · exact .close hne ih
  | bar _ _ hna hnb iha ihb => exact iha.barOf ihb hna hnb

/-- With an argument for every open parameter, equivalent types can be closed over equivalent arguments, and the
results are equivalent. -/
theorem substitute?_congr (ht : equivalent t t' = true) (has : ∀ a ∈ as, Tidy a) (hbs : ∀ b ∈ bs, Tidy b)
    (hs : EquivalentAll as bs) (hcovers : ∀ p ∈ t.positions, p < as.length) :
    ∃ u u', t.substitute? as = some u ∧ t'.substitute? bs = some u' ∧ equivalent u u' = true := by
  have hleft : t.positions.all (· < as.length) = true := by simpa using hcovers
  have hright : t'.positions.all (· < bs.length) = true := by rwa [← positions_congr ht, ← hs.length_eq]
  exact ⟨_, _, if_pos hleft, if_pos hright, substitute_congr ht has hbs hs⟩

/-- Equivalence of types is reflexive, symmetric and transitive, and nothing tells equivalent types apart. -/
theorem equivalent_interchange (below : ClassName → ClassName → Bool) :
    Equivalence (fun t t' : Ty => equivalent t t' = true) ∧
      ∀ t t' : Ty, equivalent t t' = true →
        (∀ s s', equivalent s s' = true → accepts below t s = accepts below t' s') ∧
        Option.Rel (fun m m' => equivalent m m' = true) t.optionalInner? t'.optionalInner? ∧
        t.isOpen = t'.isOpen ∧
        ∀ as bs, (∀ a ∈ as, Arises a) → (∀ b ∈ bs, Arises b) → EquivalentAll as bs →
          (∀ p ∈ t.positions, p < as.length) →
          ∃ u u', t.substitute? as = some u ∧ t'.substitute? bs = some u' ∧ equivalent u u' = true := by
  refine ⟨⟨equivalent_refl, equivalent_symm, equivalent_trans⟩, fun t t' ht => ⟨?_, ?_, ?_, ?_⟩⟩
  · intro s s' hs
    exact accepts_congr below ht hs
  · exact optionalInner?_congr ht
  · exact isOpen_congr ht
  · intro as bs has hbs hs hcovers
    exact substitute?_congr ht (fun a ha => (has a ha).tidy) (fun b hb => (hbs b hb).tidy) hs hcovers

/-- A function from an optional parameter to lists of it, in two spellings, closed over a union in two spellings: the
union is opened inside the optional one. -/
theorem equivalent_interchange_spellings :
    let t := Ty.function [.close .union [.parameter 0 "T", .nothing]] (.close .list [.parameter 0 "T"])
    let t' := Ty.function [.bar [.parameter 0 "", .nothing]] (.close .list [.parameter 0 ""])
    let as := [Ty.close .union [.int, .str]]
    let bs := [Ty.barOf .int .str]
    equivalent t t' = true ∧ EquivalentAll as bs ∧ (∀ p ∈ t.positions, p < as.length) ∧
      ∃ u u', t.substitute? as = some u ∧ t'.substitute? bs = some u' ∧ equivalent u u' = true ∧
        u.arguments.head? = some (.generic .union [.int, .str, .nothing]) := by
  intro t t' as bs
  have ht : equivalent t t' = true := by decide
  have hs : EquivalentAll as bs := .cons (by decide) .nil
  have hcovers : ∀ p ∈ t.positions, p < as.length := by decide
  have has : ∀ a ∈ as, Arises a := by
    intro a ha
    obtain rfl := List.mem_singleton.mp ha
    refine .close .union fun m hm => ?_
    obtain rfl | rfl : m = .int ∨ m = .str := by simpa using hm
    · exact .cls _
    · exact .cls _
  have hbs : ∀ b ∈ bs, Arises b := by
    intro b hb
    obtain rfl := List.mem_singleton.mp hb
    exact .bar (.cls _) (.cls _) (by simp [int]) (by simp [str])
  obtain ⟨-, hcongruence⟩ := equivalent_interchange fun _ _ => false
  obtain ⟨-, -, -, hsubstitute⟩ := hcongruence t t' ht
  obtain ⟨u, u', hu, hu', heq⟩ := hsubstitute as bs has hbs hs hcovers
  refine ⟨ht, hs, hcovers, u, u', hu, hu', heq, ?_⟩
  obtain rfl : t.substitute as = u := Option.some.inj hu
  cbv

end ExprTree.Ty
