import Mathlib.Logic.Relation

/-! Directed graphs without a cycle, and the additions that keep them so. -/

namespace Library

open Relation

universe u

variable {α : Type u}

/-- No node reaches itself along one or more edges. -/
def Acyclic (edge : α → α → Prop) : Prop := ∀ a, ¬ TransGen edge a a

namespace Acyclic

variable {edge : α → α → Prop}

theorem mono {fewer : α → α → Prop} (h : Acyclic edge) (hle : ∀ a b, fewer a b → edge a b)
    : Acyclic fewer :=
  fun a hc => h a (TransGen.mono (fun a b => hle a b) a a hc)

theorem of_empty (h : ∀ a b, ¬ edge a b) : Acyclic edge := fun a hc => by
  obtain ⟨b, hb, -⟩ := TransGen.head'_iff.mp hc
  exact h a b hb

theorem path_split {sources : α → Prop} {target a b : α}
    (h : TransGen (fun x y => edge x y ∨ (sources x ∧ y = target)) a b)
    : TransGen edge a b
      ∨ ((∃ source, sources source ∧ ReflTransGen edge a source)
          ∧ ReflTransGen edge target b) := by
  induction h with
  | single hab =>
      rcases hab with hab | ⟨ha, rfl⟩
      · exact .inl (.single hab)
      · exact .inr ⟨⟨_, ha, .refl⟩, .refl⟩
  | tail _ hbc ih =>
      rcases hbc with hbc | ⟨hb, rfl⟩
      · rcases ih with ih | ⟨hs, ht⟩
        · exact .inl (ih.tail hbc)
        · exact .inr ⟨hs, ht.tail hbc⟩
      · rcases ih with ih | ⟨hs, -⟩
        · exact .inr ⟨⟨_, hb, ih.to_reflTransGen⟩, .refl⟩
        · exact .inr ⟨hs, .refl⟩

theorem add_edges (sources : α → Prop) (target : α) (h : Acyclic edge)
    (hno : ∀ source, sources source → ¬ ReflTransGen edge target source)
    : Acyclic (fun x y => edge x y ∨ (sources x ∧ y = target)) := by
  intro a hc
  rcases path_split hc with hc | ⟨⟨source, hs, has⟩, hta⟩
  · exact h a hc
  · exact hno source hs (hta.trans has)

theorem reaches_within (extra : α → α → Prop) {a b : α}
    (h : ReflTransGen (fun x y => edge x y ∨ extra x y) a b)
    (hno : ∀ x y, ReflTransGen edge a x → ¬ extra x y)
    : ReflTransGen edge a b := by
  induction h with
  | refl => exact .refl
  | tail _ hbc ih =>
      rcases hbc with hbc | hbc
      · exact ih.tail hbc
      · exact absurd hbc (hno _ _ ih)

theorem reaches_only_self {a b : α} (hout : ∀ x, ¬ edge a x) (h : ReflTransGen edge a b)
    : a = b := by
  rcases ReflTransGen.cases_head h with h | ⟨c, hac, -⟩
  · exact h
  · exact absurd hac (hout c)

theorem add_edges_into_sink (sources : α → Prop) (target : α) (h : Acyclic edge)
    (hout : ∀ x, ¬ edge target x) (hsource : ¬ sources target)
    : Acyclic (fun x y => edge x y ∨ (sources x ∧ y = target)) :=
  h.add_edges sources target fun _ hs hr => hsource (reaches_only_self hout hr ▸ hs)

theorem add_at_node (sources : α → Prop) (node : α) (target : Option α) (h : Acyclic edge)
    (htarget : ∀ b, target = some b → ¬ ReflTransGen edge b node)
    (hsource : ∀ a, sources a → ¬ ReflTransGen edge node a)
    (hthrough : ∀ a b, sources a → target = some b → ¬ ReflTransGen edge b a)
    : Acyclic (fun x y => edge x y ∨ (x = node ∧ target = some y) ∨ (sources x ∧ y = node)) := by
  have hinto := h.add_edges sources node hsource
  rcases target with _ | b
  · exact hinto.mono fun x y hxy => by simpa using hxy
  · refine (hinto.add_edges (· = node) b ?_).mono fun x y hxy => ?_
    · rintro source rfl hr
      exact htarget b rfl (reaches_within _ hr fun x y hx hxy => hthrough x b hxy.1 rfl hx)
    · rcases hxy with hxy | ⟨rfl, hb⟩ | hxy
      · exact .inl (.inl hxy)
      · exact .inr ⟨rfl, (Option.some.inj hb).symm⟩
      · exact .inl (.inr hxy)

theorem of_walks (h : ∀ a, Acc (fun b a => edge a b) a) : Acyclic edge := by
  have hwell : WellFounded (TransGen fun b a => edge a b) := WellFounded.transGen ⟨h⟩
  intro a hcycle
  induction hwell.apply a with
  | intro a _ ih => exact ih a (transGen_swap.mp hcycle) hcycle

end Acyclic

theorem walks_of_region {new : α → α → Prop} (edge inside : α → α → Prop) (region : α → Prop)
    (hwalks : ∀ a, Acc (fun b a => edge a b) a)
    (hinside : ∀ a, region a → Acc (fun b a => inside a b) a)
    (hstays : ∀ a b, region a → new a b → inside a b ∧ region b)
    (hold : ∀ a b, ¬ region a → new a b → edge a b) (a : α)
    : Acc (fun b a => new a b) a := by
  have hregion : ∀ a, region a → Acc (fun b a => new a b) a := fun a ha => by
    induction hinside a ha with
    | intro a _ ih =>
        refine .intro a fun b hab => ?_
        obtain ⟨hwalk, hb⟩ := hstays a b ha hab
        exact ih b hwalk hb
  induction hwalks a with
  | intro a _ ih =>
      by_cases ha : region a
      · exact hregion a ha
      · exact .intro a fun b hab => ih b (hold a b ha hab)

end Library
