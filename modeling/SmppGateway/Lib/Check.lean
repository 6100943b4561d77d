import Mathlib.Data.List.Forall2
import SmppGateway.Lib.Parse

-- Checks that are made one after the other, the first failure being the answer, and a second pass over the same
-- things or changed ones that accepts less.

namespace Check

variable {ε ε' α β γ σ : Type}

def require (ok : Bool) (err : ε) : Except ε Unit :=
  if ok then .ok () else .error err

theorem require_eq_ok {ok : Bool} {err : ε} {u : Unit} : require ok err = .ok u ↔ ok = true := by
  cases ok <;> simp [require]

-- What the first pass accepts, the second accepts with the same result if and only if `P` holds.
def Narrows (x y : Except ε α) (P : Prop) : Prop :=
  ∀ a, x = .ok a → ∀ b, y = .ok b ↔ P ∧ b = a

namespace Narrows

variable {x y : Except ε α} {P Q : Prop} {φ : Nat → β → γ}

theorem accepts (h : Narrows x y P) {a : α} (hx : x = .ok a) : y = .ok a ↔ P :=
  (h a hx a).trans (and_iff_left rfl)

theorem congr (h : Narrows x y P) (hiff : P ↔ Q) : Narrows x y Q :=
  fun a hx b => (h a hx b).trans (and_congr_left' hiff)

theorem same : Narrows x x True := by
  rintro a rfl b
  rw [true_and, Except.ok.injEq]
  exact eq_comm

theorem of_error {e : ε} : Narrows (.error e) y P := by
  intro a hx
  cases hx

theorem of_iff (h : ∀ a, x = .ok a ↔ y = .ok a) : Narrows x y True := by
  intro a hx b
  rw [← h b]
  exact same a hx b

theorem of_unit {x y : Except ε Unit} (h : x = .ok () → (y = .ok () ↔ P)) : Narrows x y P :=
  fun _ hx _ => (h hx).trans (and_iff_left rfl).symm

theorem bind {f g : α → Except ε β} (h : Narrows x y P) (hf : ∀ a, Narrows (f a) (g a) Q) :
    Narrows (x >>= f) (y >>= g) (P ∧ Q) := by
  intro c hx b
  obtain ⟨a, ha, hc⟩ := Parse.bind_eq_ok.mp hx
  rw [Parse.bind_eq_ok, and_assoc, ← hf a c hc b]
  constructor
  case mp =>
    rintro ⟨a', ha', hb⟩
    obtain ⟨hp, rfl⟩ := (h a ha a').mp ha'
    exact ⟨hp, hb⟩
  case mpr =>
    rintro ⟨hp, hb⟩
    exact ⟨a, (h a ha a).mpr ⟨hp, rfl⟩, hb⟩

theorem skip {f g : α → Except ε β} (hf : ∀ a, Narrows (f a) (g a) Q) : Narrows (x >>= f) (x >>= g) Q :=
  (same.bind hf).congr (iff_of_eq (true_and Q))

theorem ite {c : Prop} [Decidable c] {x' y' : Except ε α} (hpos : c → Narrows x x' P)
    (hneg : ¬c → Narrows y y' P) : Narrows (if c then x else y) (if c then x' else y') P := by
  by_cases h : c
  case pos =>
    rw [if_pos h, if_pos h]
    exact hpos h
  case neg =>
    rw [if_neg h, if_neg h]
    exact hneg h

theorem mapError {wrap wrap' : ε → ε'} (h : Narrows x y P) : Narrows (x.mapError wrap) (y.mapError wrap') P := by
  have hok {w : ε → ε'} {z : Except ε α} {a : α} : z.mapError w = .ok a ↔ z = .ok a := by
    cases z <;> simp [Except.mapError]
  intro a hx b
  rw [hok]
  exact h a (hok.mp hx) b

theorem forall₂_mapIdx {R : β → γ → Prop} (h : ∀ i b, R b (φ i b)) (l : List β) : List.Forall₂ R l (l.mapIdx φ) := by
  rw [List.forall₂_iff_get]
  refine ⟨by simp, fun i hi hi' => ?_⟩
  simpa using h i _

theorem foldlM {f : σ → β → Except ε σ} {g : σ → γ → Except ε σ} {P : β → Prop} {l : List β} {l' : List γ}
    (h : List.Forall₂ (fun b c => ∀ s, Narrows (f s b) (g s c) (P b)) l l') (s : σ) :
    Narrows (l.foldlM f s) (l'.foldlM g s) (∀ b ∈ l, P b) := by
  induction h generalizing s
  case nil => exact same.congr (by simp)
  case cons b c l l' hbc _ ih =>
    rw [List.foldlM_cons, List.foldlM_cons]
    exact ((hbc s).bind ih).congr List.forall_mem_cons.symm

theorem forM {f : β → Except ε Unit} {g : γ → Except ε Unit} {P : β → Prop} {l : List β} {l' : List γ}
    (h : List.Forall₂ (fun b c => Narrows (f b) (g c) (P b)) l l') :
    Narrows (l.forM f) (l'.forM g) (∀ b ∈ l, P b) := by
  induction h
  case nil => exact same.congr (by simp)
  case cons b c l l' hbc _ ih =>
    change Narrows (f b >>= fun _ => l.forM f) (g c >>= fun _ => l'.forM g) _
    exact (hbc.bind fun _ => ih).congr List.forall_mem_cons.symm

theorem foldlM_mapIdx {f : σ → β → Except ε σ} {g : σ → γ → Except ε σ} {P : β → Prop}
    (h : ∀ i b s, Narrows (f s b) (g s (φ i b)) (P b)) (l : List β) (s : σ) :
    Narrows (l.foldlM f s) ((l.mapIdx φ).foldlM g s) (∀ b ∈ l, P b) :=
  foldlM (forall₂_mapIdx h l) s

theorem forM_mapIdx {f : β → Except ε Unit} {g : γ → Except ε Unit} {P : β → Prop}
    (h : ∀ i b, Narrows (f b) (g (φ i b)) (P b)) (l : List β) :
    Narrows (l.forM f) ((l.mapIdx φ).forM g) (∀ b ∈ l, P b) :=
  forM (forall₂_mapIdx h l)

end Narrows

theorem forM_eq_ok {f : β → Except ε Unit} {l : List β} {u : Unit} : l.forM f = .ok u ↔ ∀ b ∈ l, f b = .ok () := by
  induction l
  case nil => simp [List.forM, pure, Except.pure]
  case cons b l ih =>
    change (f b >>= fun _ => l.forM f) = .ok u ↔ _
    rw [Parse.bind_eq_ok, List.forall_mem_cons, ← ih]
    exact ⟨fun ⟨_, hb, hl⟩ => ⟨hb, hl⟩, fun ⟨hb, hl⟩ => ⟨(), hb, hl⟩⟩

section Loop

variable {κ : Type} {f : σ → β → Except ε σ} {l : List β} {s s' : σ}

theorem forall_of_foldlM {P : β → Prop} (hf : ∀ s b s', f s b = .ok s' → P b) (h : l.foldlM f s = .ok s') :
    ∀ b ∈ l, P b := by
  induction l generalizing s
  case nil => exact fun _ hb => absurd hb List.not_mem_nil
  case cons b l ih =>
    rw [List.foldlM_cons] at h
    obtain ⟨s₁, hb, hl⟩ := Parse.bind_eq_ok.mp h
    exact List.forall_mem_cons.mpr ⟨hf s b s₁ hb, ih hl⟩

theorem nodup_of_foldlM (key : β → κ) (has : σ → κ → Prop)
    (hf : ∀ s b s', f s b = .ok s' → ¬has s (key b) ∧ ∀ k, has s' k ↔ k = key b ∨ has s k)
    (h : l.foldlM f s = .ok s') : (l.map key).Nodup ∧ ∀ b ∈ l, ¬has s (key b) := by
  induction l generalizing s
  case nil => simp
  case cons b l ih =>
    rw [List.foldlM_cons] at h
    obtain ⟨s₁, hb, hl⟩ := Parse.bind_eq_ok.mp h
    obtain ⟨hnew, hhas⟩ := hf s b s₁ hb
    obtain ⟨hnodup, hunseen⟩ := ih hl
    have hapart : ∀ c ∈ l, key c ≠ key b ∧ ¬has s (key c) := by
      intro c hc
      have hc := hunseen c hc
      rw [hhas, not_or] at hc
      exact hc
    refine ⟨?_, List.forall_mem_cons.mpr ⟨hnew, fun c hc => (hapart c hc).2⟩⟩
    rw [List.map_cons, List.nodup_cons]
    refine ⟨fun hm => ?_, hnodup⟩
    obtain ⟨c, hc, he⟩ := List.mem_map.mp hm
    exact (hapart c hc).1 he

end Loop

end Check
