import Mathlib.Data.Finset.Card
import Mathlib.Data.Nat.Notation

/-! Searching outward, one place after the other, until enough has been found. What a search finds are
the nearest places of the kind it looks for, and it ends unless it has to go where it cannot. -/
namespace RndRust.Lib

/-- Look at the places from `j` on until so many marked ones are found or a place stops the search. There
is no result when a step goes to a place that does not fit, or when the steps are used up. -/
def search (marked stop fits : ℕ → Bool) : ℕ → ℕ → ℕ → Option (List ℕ)
  | _, _, 0 => some []
  | 0, _, _ + 1 => none
  | steps + 1, j, wanted + 1 =>
    if stop j then some []
    else if fits (j + 1) then
      if marked j then (search marked stop fits steps (j + 1) wanted).map (j :: ·)
      else search marked stop fits steps (j + 1) (wanted + 1)
    else none

/-- The nearest marked places in order: so many, or all when there are fewer. -/
structure Nearest (marked : ℕ → Bool) (wanted : ℕ) (found : List ℕ) : Prop where
  ordered : found.Pairwise (· < ·)
  all_marked : ∀ i ∈ found, marked i
  few : found.length ≤ wanted
  nearest : ∀ i, marked i → i ∉ found → found.length = wanted ∧ ∀ f ∈ found, f < i

/-- What a search from `j` on has found. -/
structure Searched (marked stop fits : ℕ → Bool) (j wanted : ℕ) (found : List ℕ) : Prop where
  ordered : found.Pairwise (· < ·)
  ahead : ∀ i ∈ found, j ≤ i ∧ marked i
  few : found.length ≤ wanted
  nearest : ∀ i, j ≤ i → marked i → i ∉ found →
    (found.length = wanted ∧ ∀ f ∈ found, f < i) ∨ ∃ k, j ≤ k ∧ k ≤ i ∧ stop k
  ended : found.length = wanted ∨ ∃ n, j ≤ n ∧ stop n ∧ (n = j ∨ fits n)
  fitting : ∀ i ∈ found, fits (i + 1)

variable {marked stop fits : ℕ → Bool} {steps j d wanted : ℕ} {found other : List ℕ}

theorem Searched.here (none : wanted = 0 ∨ stop j) : Searched marked stop fits j wanted [] where
  ordered := .nil
  ahead := nofun
  few := Nat.zero_le _
  nearest _ after _ _ := none.imp (fun zero => ⟨zero.symm, nofun⟩) fun stops => ⟨j, le_rfl, after, stops⟩
  ended := none.imp Eq.symm fun stops => ⟨j, le_rfl, stops, .inl rfl⟩
  fitting := nofun

theorem ended_before (next : fits (j + 1))
    (ended : found.length = wanted ∨ ∃ n, j + 1 ≤ n ∧ stop n ∧ (n = j + 1 ∨ fits n)) :
    found.length = wanted ∨ ∃ n, j ≤ n ∧ stop n ∧ (n = j ∨ fits n) := by
  obtain enough | ⟨n, after, stops, first | fit⟩ := ended
  · exact .inl enough
  · exact .inr ⟨n, by omega, stops, .inr (first ▸ next)⟩
  · exact .inr ⟨n, by omega, stops, .inr fit⟩

/-- A marked place is found. -/
theorem Searched.cons (searched : Searched marked stop fits (j + 1) wanted found) (next : fits (j + 1))
    (here : marked j) : Searched marked stop fits j (wanted + 1) (j :: found) where
  ordered := List.pairwise_cons.mpr ⟨fun i member => (searched.ahead i member).1, searched.ordered⟩
  ahead := List.forall_mem_cons.mpr ⟨⟨le_rfl, here⟩, fun i member =>
    ⟨(Nat.le_succ j).trans (searched.ahead i member).1, (searched.ahead i member).2⟩⟩
  few := Nat.succ_le_succ searched.few
  nearest i after is_marked new := by
    obtain ⟨apart, new⟩ := not_or.mp (List.mem_cons.not.mp new)
    obtain ⟨enough, below⟩ | ⟨k, from_here, to_i, stops⟩ := searched.nearest i (by omega) is_marked new
    · exact .inl ⟨congrArg (· + 1) enough, List.forall_mem_cons.mpr ⟨by omega, below⟩⟩
    · exact .inr ⟨k, by omega, to_i, stops⟩
  ended := (ended_before next searched.ended).imp_left (congrArg (· + 1))
  fitting := List.forall_mem_cons.mpr ⟨next, searched.fitting⟩

/-- A place without a mark is passed. -/
theorem Searched.passed (searched : Searched marked stop fits (j + 1) wanted found) (next : fits (j + 1))
    (here : ¬marked j) : Searched marked stop fits j wanted found where
  ordered := searched.ordered
  ahead i member := ⟨(Nat.le_succ j).trans (searched.ahead i member).1, (searched.ahead i member).2⟩
  few := searched.few
  nearest i after is_marked new := by
    have apart : i ≠ j := by
      rintro rfl
      exact here is_marked
    obtain enough | ⟨k, from_here, to_i, stops⟩ := searched.nearest i (by omega) is_marked new
    · exact .inl enough
    · exact .inr ⟨k, by omega, to_i, stops⟩
  ended := ended_before next searched.ended
  fitting := searched.fitting

theorem search_searched (result : search marked stop fits steps j wanted = some found) :
    Searched marked stop fits j wanted found := by
  induction steps generalizing j wanted found with
  | zero =>
    cases wanted with
    | zero =>
      obtain rfl := Option.some.inj result
      exact .here (.inl rfl)
    | succ => cases result
  | succ steps ih =>
    cases wanted with
    | zero =>
      obtain rfl := Option.some.inj result
      exact .here (.inl rfl)
    | succ wanted =>
      rw [search] at result
      split at result
      case isTrue stops =>
        obtain rfl := Option.some.inj result
        exact .here (.inr stops)
      case isFalse =>
        split at result
        case isFalse => cases result
        case isTrue next =>
          split at result
          case isTrue here =>
            obtain ⟨rest, searched, rfl⟩ := Option.map_eq_some_iff.mp result
            exact (ih searched).cons next here
          case isFalse here => exact (ih result).passed next here

/-- A search ends that only goes to places that fit until it comes to one that stops it, or has passed
enough marked ones. -/
theorem exists_search (enough_steps : d < steps) (fit : ∀ i, j < i → i ≤ j + d → fits i)
    (ends : stop (j + d) ∨ ∃ near : Finset ℕ, (∀ i ∈ near, j ≤ i ∧ i < j + d ∧ marked i) ∧ wanted ≤ near.card) :
    ∃ found, search marked stop fits steps j wanted = some found := by
  induction steps generalizing j d wanted with
  | zero => exact absurd enough_steps (Nat.not_lt_zero d)
  | succ steps ih =>
    cases wanted with
    | zero => exact ⟨[], rfl⟩
    | succ wanted =>
      rw [search]
      split
      case isTrue => exact ⟨[], rfl⟩
      case isFalse on =>
        have more : d ≠ 0 := by
          rintro rfl
          obtain stops | ⟨near, between, enough⟩ := ends
          · exact on stops
          · obtain ⟨i, member⟩ := Finset.card_pos.mp (Nat.lt_of_lt_of_le wanted.succ_pos enough)
            have place := between i member
            omega
        obtain ⟨d, rfl⟩ := Nat.exists_eq_succ_of_ne_zero more
        have further : ∀ i, j + 1 < i → i ≤ j + 1 + d → fits i := fun i after before => fit i (by omega) (by omega)
        have ends : stop (j + 1 + d) ∨ ∃ near : Finset ℕ,
            (∀ i ∈ near, j ≤ i ∧ i < j + 1 + d ∧ marked i) ∧ wanted + 1 ≤ near.card := by
          rwa [Nat.add_assoc, Nat.add_comm 1]
        rw [if_pos (fit (j + 1) (by omega) (by omega))]
        split
        case isTrue here =>
          have rest : stop (j + 1 + d) ∨ ∃ near : Finset ℕ,
              (∀ i ∈ near, j + 1 ≤ i ∧ i < j + 1 + d ∧ marked i) ∧ wanted ≤ near.card := by
            refine ends.imp_right fun ⟨near, between, enough⟩ => ⟨near.erase j, fun i member => ?_, ?_⟩
            · obtain ⟨apart, member⟩ := Finset.mem_erase.mp member
              obtain ⟨after, before, is_marked⟩ := between i member
              exact ⟨by omega, before, is_marked⟩
            · have fewer := Finset.pred_card_le_card_erase (s := near) (a := j)
              omega
          obtain ⟨found, searched⟩ := ih (by omega) further rest
          exact ⟨j :: found, by rw [searched]; rfl⟩
        case isFalse here =>
          refine ih (by omega) further (ends.imp_right fun ⟨near, between, enough⟩ => ⟨near, fun i member => ?_, enough⟩)
          obtain ⟨after, before, is_marked⟩ := between i member
          have apart : i ≠ j := by
            rintro rfl
            exact here is_marked
          exact ⟨by omega, before, is_marked⟩

/-- When nothing is marked from where the search stops, the nearest places have been found. -/
theorem Searched.isNearest (searched : Searched marked stop fits 0 wanted found)
    (beyond : ∀ k i, stop k → k ≤ i → ¬marked i) : Nearest marked wanted found where
  ordered := searched.ordered
  all_marked i member := (searched.ahead i member).2
  few := searched.few
  nearest i is_marked new := (searched.nearest i (Nat.zero_le i) is_marked new).resolve_right
    fun ⟨k, _, to_i, stops⟩ => beyond k i stops to_i is_marked

/-- The nearest places are the same ones whoever finds them. -/
theorem Nearest.subset (first : Nearest marked wanted found) (second : Nearest marked wanted other) :
    found ⊆ other := by
  intro i member
  by_contra new
  obtain ⟨full, below⟩ := second.nearest i (first.all_marked i member) new
  -- The other places cannot all be among these, which are no more and have `i` besides.
  have more : ∃ f ∈ other, f ∉ found := by
    by_contra none
    have inside : i :: other ⊆ found := List.cons_subset.mpr ⟨member, fun f there => by
      by_contra out
      exact none ⟨f, there, out⟩⟩
    have distinct : (i :: other).Nodup :=
      List.nodup_cons.mpr ⟨new, second.ordered.imp fun below => below.ne⟩
    have longer := (distinct.subperm inside).length_le
    have few := first.few
    rw [List.length_cons] at longer
    omega
  obtain ⟨f, there, out⟩ := more
  have before := (first.nearest f (second.all_marked f there) out).2 i member
  have after := below f there
  omega

end RndRust.Lib
