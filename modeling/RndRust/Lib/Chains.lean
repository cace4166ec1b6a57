import Mathlib.Data.List.Nodup
import Mathlib.Data.Sym.Sym2

/-! Chains of steps between vertices, where each step takes an edge that has a name and may be one of
several between its two ends. A chain that visits no vertex twice takes no edge twice. -/
namespace RndRust.Lib

variable {σ V L : Type*} {source target : σ → V} {label : σ → L} {a b : V} {s : σ} {steps : List σ}

/-- Each step starts where the one before has ended, the first at `a`, and the last ends at `b`. -/
def Chain (source target : σ → V) : V → V → List σ → Prop
  | a, b, [] => a = b
  | a, b, s :: steps => source s = a ∧ Chain source target (target s) b steps

theorem chain_map {τ : Type*} {f : τ → σ} {l : List τ} :
    Chain source target a b (l.map f) ↔ Chain (source ∘ f) (target ∘ f) a b l := by
  induction l generalizing a with
  | nil => rfl
  | cons first rest ih => exact and_congr_right fun _ => ih

theorem Chain.head? (chain : Chain source target a b steps) (nonempty : steps ≠ []) :
    steps.head?.map source = some a := by
  cases steps with
  | nil => exact absurd rfl nonempty
  | cons first rest => exact congrArg some chain.1

theorem Chain.getLast? (chain : Chain source target a b steps) (nonempty : steps ≠ []) :
    steps.getLast?.map target = some b := by
  induction steps generalizing a with
  | nil => exact absurd rfl nonempty
  | cons first rest ih =>
    cases rest with
    | nil => exact congrArg some chain.2
    | cons second rest => exact ih chain.2 (List.cons_ne_nil _ _)

theorem Chain.source_mem (chain : Chain source target a b steps) (member : s ∈ steps) :
    source s ∈ a :: steps.map target := by
  induction steps generalizing a with
  | nil => cases member
  | cons first rest ih =>
    obtain ⟨starts, chain⟩ := chain
    rcases List.mem_cons.mp member with rfl | member
    · rw [starts]
      exact List.mem_cons_self
    · exact List.mem_cons_of_mem _ (ih chain member)

end RndRust.Lib
