import Mathlib.Algebra.Ring.Nat
import Mathlib.Data.List.Basic

/-! Byte strings with their length in front: what is written one after the other can be read back
in one way only.
-/

namespace Library

universe u v

variable {α : Type u} {β : Type v}

/-- The last bytes of a number, the most significant first. -/
def bigEndian : Nat → Nat → List UInt8
  | 0, _ => []
  | width + 1, n => bigEndian width (n / 256) ++ [UInt8.ofNat (n % 256)]

@[simp] theorem length_bigEndian (width n : Nat) : (bigEndian width n).length = width := by
  induction width generalizing n with
  | zero => rfl
  | succ width ih => simp [bigEndian, ih]

theorem bigEndian_inj {width m n : Nat} (hm : m < 256 ^ width) (hn : n < 256 ^ width)
    (h : bigEndian width m = bigEndian width n)
    : m = n := by
  induction width generalizing m n with
  | zero =>
      rw [Nat.pow_zero] at hm hn
      omega
  | succ width ih =>
      obtain ⟨hhigh, hlow⟩ := List.append_inj h (by simp)
      have hquotient : m / 256 = n / 256 := by
        rw [Nat.pow_succ] at hm hn
        exact ih (Nat.div_lt_of_lt_mul (by omega)) (Nat.div_lt_of_lt_mul (by omega)) hhigh
      have hremainder := congrArg UInt8.toNat (List.cons.inj hlow).1
      simp only [UInt8.toNat_ofNat'] at hremainder
      omega

/-- A number in a fixed number of bytes, none where it does not fit. -/
def packUnsigned (width n : Nat) : Option (List UInt8) :=
  if n < 256 ^ width then some (bigEndian width n) else none

/-- Bytes with their length in front. -/
def frame (width : Nat) (bytes : List UInt8) : Option (List UInt8) :=
  (packUnsigned width bytes.length).map (· ++ bytes)

theorem frame_ne_nil {width : Nat} (hwidth : 0 < width) (bytes : List UInt8)
    : frame width bytes ≠ some [] := by
  intro h
  obtain ⟨length, hlength, hnil⟩ := Option.map_eq_some_iff.mp h
  unfold packUnsigned at hlength
  split at hlength
  · obtain rfl := Option.some.inj hlength
    have hempty := congrArg List.length (List.append_eq_nil_iff.mp hnil).1
    rw [length_bigEndian, List.length_nil] at hempty
    omega
  · cases hlength

/-- A code no word of which begins in two ways. -/
def PrefixFree (encode : α → Option (List β)) : Prop :=
  ∀ {a b wordA wordB restA restB}, encode a = some wordA → encode b = some wordB →
    wordA ++ restA = wordB ++ restB → a = b ∧ restA = restB

theorem frame_prefixFree (width : Nat) : PrefixFree (frame width) := by
  intro a b wordA wordB restA restB ha hb h
  obtain ⟨lengthA, hlengthA, rfl⟩ := Option.map_eq_some_iff.mp ha
  obtain ⟨lengthB, hlengthB, rfl⟩ := Option.map_eq_some_iff.mp hb
  unfold packUnsigned at hlengthA hlengthB
  split at hlengthA
  · next hfitsA =>
      split at hlengthB
      · next hfitsB =>
          obtain rfl := Option.some.inj hlengthA
          obtain rfl := Option.some.inj hlengthB
          rw [List.append_assoc, List.append_assoc] at h
          obtain ⟨hlength, hbytes⟩ := List.append_inj h (by simp)
          exact List.append_inj hbytes (bigEndian_inj hfitsA hfitsB hlength)
      · cases hlengthB
  · cases hlengthA

theorem PrefixFree.comp {γ : Type*} {encode : α → Option (List β)} (hfree : PrefixFree encode)
    {f : γ → α} (hf : ∀ a b, f a = f b → a = b)
    : PrefixFree fun a => encode (f a) := by
  intro a b wordA wordB restA restB ha hb h
  obtain ⟨he, hrest⟩ := hfree ha hb h
  exact ⟨hf a b he, hrest⟩

/-- A pair is written as its first part and then its second. -/
def encodePair {γ : Type*} (first : α → Option (List β)) (second : γ → Option (List β))
    (pair : α × γ)
    : Option (List β) :=
  (first pair.1).bind fun word => (second pair.2).map (word ++ ·)

theorem PrefixFree.pair {γ : Type*} {first : α → Option (List β)} {second : γ → Option (List β)}
    (hfirst : PrefixFree first) (hsecond : PrefixFree second)
    : PrefixFree (encodePair first second) := by
  rintro ⟨a, c⟩ ⟨b, d⟩ wordA wordB restA restB ha hb h
  simp only [encodePair, Option.bind_eq_some_iff, Option.map_eq_some_iff] at ha hb
  obtain ⟨firstA, hfirstA, secondA, hsecondA, rfl⟩ := ha
  obtain ⟨firstB, hfirstB, secondB, hsecondB, rfl⟩ := hb
  rw [List.append_assoc, List.append_assoc] at h
  obtain ⟨rfl, h⟩ := hfirst hfirstA hfirstB h
  obtain ⟨rfl, h⟩ := hsecond hsecondA hsecondB h
  exact ⟨rfl, h⟩

/-- The words of a list, one after the other. -/
def encodeAll (encode : α → Option (List β)) : List α → Option (List β)
  | [] => some []
  | a :: rest => (encode a).bind fun word => (encodeAll encode rest).map (word ++ ·)

theorem PrefixFree.encodeAll_inj {encode : α → Option (List β)} (hfree : PrefixFree encode)
    (hnonempty : ∀ a, encode a ≠ some []) {left right : List α} {word : List β}
    (hleft : encodeAll encode left = some word) (hright : encodeAll encode right = some word)
    : left = right := by
  have hempty : ∀ {list : List α}, encodeAll encode list = some [] → list = [] := by
    intro list h
    cases list with
    | nil => rfl
    | cons a rest =>
        simp only [encodeAll, Option.bind_eq_some_iff, Option.map_eq_some_iff] at h
        obtain ⟨first, hfirst, others, -, happend⟩ := h
        obtain ⟨rfl, -⟩ := List.append_eq_nil_iff.mp happend
        exact absurd hfirst (hnonempty a)
  induction left generalizing right word with
  | nil =>
      obtain rfl := Option.some.inj hleft
      exact (hempty hright).symm
  | cons a left ih =>
      cases right with
      | nil =>
          obtain rfl := Option.some.inj hright
          exact hempty hleft
      | cons b right =>
          simp only [encodeAll, Option.bind_eq_some_iff, Option.map_eq_some_iff] at hleft hright
          obtain ⟨wordA, hwordA, restA, hrestA, rfl⟩ := hleft
          obtain ⟨wordB, hwordB, restB, hrestB, happend⟩ := hright
          obtain ⟨rfl, rfl⟩ := hfree hwordA hwordB happend.symm
          rw [ih hrestA hrestB]

end Library
