import Mathlib.Data.PNat.Basic
import Mathlib.Tactic.ByContra

/-!
# Reading to the end

A reader is asked for at most `n` items and gives some of what is left, none
only at the end. Reading to the end, with buffers of any sizes, gives all that
is left; a limit put on the reader gives the beginning of it.
-/

namespace Reading

variable {σ ε β : Type*}

abbrev Read (σ ε β : Type*) := Nat → σ → Except ε (List β) × σ

/- The `i`-th call offers a buffer of `sizes i` items, and the first call that gives
nothing is the last. `none` stands for a loop that has not ended yet. -/
def readToEnd (read : Read σ ε β) (sizes : Nat → ℕ+) :
    Nat → Nat → σ → Option (Except ε (List β))
  | 0, _, _ => none
  | fuel + 1, i, s =>
    match read (sizes i) s with
    | (.error err, _) => some (.error err)
    | (.ok [], _) => some (.ok [])
    | (.ok (b :: data), next) =>
      (readToEnd read sizes fuel (i + 1) next).map fun result =>
        result.map fun rest => b :: data ++ rest

/- The state of a limited reader is what it may still give and the reader's own state. -/
def limited (read : Read σ ε β) : Read (Nat × σ) ε β := fun n s =>
  if s.1 = 0 then (.ok [], s)
  else
    match read (min n s.1) s.2 with
    | (.ok data, next) => (.ok data, (s.1 - data.length, next))
    | (.error err, next) => (.error err, (s.1, next))

/-- In a state with `rest` left, a call gives a beginning of it, and nothing only if
nothing was asked for or is left. -/
def Serves (read : Read σ ε β) (Left : σ → List β → Prop) : Prop :=
  ∀ n s rest, Left s rest → ∃ k next, (0 < n → rest ≠ [] → 0 < k) ∧ k ≤ n ∧
    read n s = (.ok (rest.take k), next) ∧ Left next (rest.drop k)

theorem readToEnd_serves {read : Read σ ε β} {Left : σ → List β → Prop}
    (hserves : Serves read Left) (sizes : Nat → ℕ+) (fuel i : Nat) (s : σ) (rest : List β)
    (h : Left s rest) (hfuel : rest.length < fuel) :
    readToEnd read sizes fuel i s = some (.ok rest) := by
  induction fuel generalizing i s rest with
  | zero => omega
  | succ fuel ih =>
    obtain ⟨k, next, hpos, _, hread, hnext⟩ := hserves (sizes i) s rest h
    unfold readToEnd
    rw [hread]
    cases hdata : rest.take k with
    | nil =>
      have hempty : rest = [] := by
        by_contra hne
        have hk := hpos (sizes i).pos hne
        rcases List.take_eq_nil_iff.mp hdata with h | h
        · omega
        · exact hne h
      rw [hempty]
    | cons b data =>
      have hk : 0 < k := by
        by_contra hzero
        have hk0 : k = 0 := by omega
        rw [hk0, List.take_zero] at hdata
        cases hdata
      have hne : rest ≠ [] := by
        intro hempty
        rw [hempty, List.take_nil] at hdata
        cases hdata
      have hshorter : (rest.drop k).length < fuel := by
        have hlen := List.length_pos_iff.mpr hne
        rw [List.length_drop]
        omega
      dsimp only
      rw [ih (i + 1) next (rest.drop k) hnext hshorter, Option.map_some, ← hdata]
      simp only [Except.map, List.take_append_drop]

theorem limited_serves {read : Read σ ε β} {Left : σ → List β → Prop}
    (hserves : Serves read Left) :
    Serves (limited read) fun s rest => ∃ all, Left s.2 all ∧ rest = all.take s.1 := by
  intro n s rest h
  obtain ⟨all, hall, hrest⟩ := h
  obtain ⟨limit, s⟩ := s
  dsimp only at hall hrest
  by_cases hlimit : limit = 0
  · have hempty : rest = [] := by rw [hrest, hlimit, List.take_zero]
    refine ⟨0, (limit, s), fun _ hne => absurd hempty hne, Nat.zero_le n, ?_, all, hall, ?_⟩
    · simp only [limited, hlimit, if_true, List.take_zero]
    · rw [List.drop_zero]
      exact hrest
  · obtain ⟨k, next, hpos, hk, hread, hnext⟩ := hserves (min n limit) s all hall
    refine ⟨k, (limit - (all.take k).length, next), ?_, by omega, ?_, all.drop k, hnext, ?_⟩
    · intro hn hne
      apply hpos (by omega)
      intro hempty
      rw [hempty, List.take_nil] at hrest
      exact hne hrest
    · have htake : rest.take k = all.take k := by
        rw [hrest, List.take_take, Nat.min_eq_left (by omega)]
      simp only [limited, if_neg hlimit, hread, htake]
    · rw [hrest, List.drop_take]
      dsimp only
      by_cases hshort : k ≤ all.length
      · rw [List.length_take, Nat.min_eq_left hshort]
      · rw [List.drop_of_length_le (by omega), List.take_nil, List.take_nil]

/-- A property of what is left follows from the end backwards. -/
theorem readToEnd_ok {read : Read σ ε β} {P : σ → List β → Prop}
    (hlast : ∀ n s next, 0 < n → read n s = (.ok [], next) → P s [])
    (hmore : ∀ n s next data rest, data ≠ [] → read n s = (.ok data, next) → P next rest →
      P s (data ++ rest))
    (sizes : Nat → ℕ+) (fuel i : Nat) (s : σ) (rest : List β)
    (h : readToEnd read sizes fuel i s = some (.ok rest)) : P s rest := by
  induction fuel generalizing i s rest with
  | zero => cases h
  | succ fuel ih =>
    unfold readToEnd at h
    cases hread : read (sizes i) s with
    | mk result next =>
      rw [hread] at h
      cases result with
      | error err => cases h
      | ok data =>
        cases data with
        | nil =>
          have hnil : rest = [] := by
            injection h with h
            injection h with h
            exact h.symm
          rw [hnil]
          exact hlast (sizes i) s next (sizes i).pos hread
        | cons b data =>
          dsimp only at h
          cases hrest : readToEnd read sizes fuel (i + 1) next with
          | none =>
            rw [hrest] at h
            cases h
          | some result =>
            rw [hrest] at h
            cases result with
            | error err => cases h
            | ok tail =>
              have htail : b :: data ++ tail = rest := by
                simpa only [Option.map_some, Except.map, Option.some.injEq, Except.ok.injEq]
                  using h
              rw [← htail]
              exact hmore (sizes i) s next (b :: data) tail (List.cons_ne_nil _ _) hread
                (ih (i + 1) next tail hrest)

/-- Whatever reading to the end gave, it is what was left. -/
theorem readToEnd_unique {read : Read σ ε β} {Left : σ → List β → Prop}
    (hserves : Serves read Left) (sizes : Nat → ℕ+) (fuel i : Nat) (s : σ) (rest out : List β)
    (h : Left s rest) (hout : readToEnd read sizes fuel i s = some (.ok out)) : out = rest := by
  revert rest
  refine readToEnd_ok (P := fun s out => ∀ rest, Left s rest → out = rest) ?_ ?_ sizes fuel i s
    out hout
  · intro n s next hn hread rest h
    obtain ⟨k, next', hpos, _, hserve, _⟩ := hserves n s rest h
    rw [hread] at hserve
    have hdata : [] = rest.take k := Except.ok.inj (Prod.mk.inj hserve).1
    by_contra hne
    have hk := hpos hn fun hempty => hne hempty.symm
    rcases List.take_eq_nil_iff.mp hdata.symm with h | h
    · omega
    · exact hne h.symm
  · intro n s next data tail _ hread ih rest h
    obtain ⟨k, next', _, _, hserve, hnext⟩ := hserves n s rest h
    rw [hread] at hserve
    obtain ⟨hdata, hsame⟩ := Prod.mk.inj hserve
    rw [Except.ok.inj hdata, ih (rest.drop k) (hsame ▸ hnext), List.take_append_drop]

/-- A reader that answers as another one reads to the end as that one does. -/
theorem readToEnd_embed {τ : Type*} (read : Read σ ε β) {read' : Read τ ε β} (embed : σ → τ)
    (hread : ∀ n s, read' n (embed s) = ((read n s).1, embed (read n s).2))
    (sizes : Nat → ℕ+) (fuel i : Nat) (s : σ) :
    readToEnd read' sizes fuel i (embed s) = readToEnd read sizes fuel i s := by
  induction fuel generalizing i s with
  | zero => rfl
  | succ fuel ih =>
    unfold readToEnd
    rw [hread]
    obtain ⟨result, next⟩ := read (sizes i) s
    cases result with
    | error err => rfl
    | ok data =>
      cases data with
      | nil => rfl
      | cons b data =>
        dsimp only
        rw [ih]

/-! ### The reader that is left -/

/- `readToEnd` together with the reader after the last call; what was read before an error is
dropped. -/
def drain (read : Read σ ε β) (sizes : Nat → ℕ+) :
    Nat → Nat → σ → Option (Except ε (List β) × σ)
  | 0, _, _ => none
  | fuel + 1, i, s =>
    match read (sizes i) s with
    | (.error err, next) => some (.error err, next)
    | (.ok [], next) => some (.ok [], next)
    | (.ok (b :: data), next) =>
      (drain read sizes fuel (i + 1) next).map fun result =>
        (result.1.map fun rest => b :: data ++ rest, result.2)

theorem drain_serves {read : Read σ ε β} {Left : σ → List β → Prop} (hserves : Serves read Left)
    (sizes : Nat → ℕ+) (fuel i : Nat) (s : σ) (rest : List β) (h : Left s rest)
    (hfuel : rest.length < fuel) :
    ∃ next, drain read sizes fuel i s = some (.ok rest, next) ∧ Left next [] := by
  induction fuel generalizing i s rest with
  | zero => omega
  | succ fuel ih =>
    obtain ⟨k, mid, hpos, _, hread, hmid⟩ := hserves (sizes i) s rest h
    unfold drain
    rw [hread]
    cases hdata : rest.take k with
    | nil =>
      have hempty : rest = [] := by
        by_contra hne
        have hk := hpos (sizes i).pos hne
        rcases List.take_eq_nil_iff.mp hdata with h | h
        · omega
        · exact hne h
      rw [hempty, List.drop_nil] at hmid
      exact ⟨mid, by rw [hempty], hmid⟩
    | cons b data =>
      have hk : 0 < k := by
        by_contra hzero
        have hk0 : k = 0 := by omega
        rw [hk0, List.take_zero] at hdata
        cases hdata
      have hne : rest ≠ [] := by
        intro hempty
        rw [hempty, List.take_nil] at hdata
        cases hdata
      have hshorter : (rest.drop k).length < fuel := by
        have hlen := List.length_pos_iff.mpr hne
        rw [List.length_drop]
        omega
      obtain ⟨next, hdrain, hnext⟩ := ih (i + 1) mid (rest.drop k) hmid hshorter
      refine ⟨next, ?_, hnext⟩
      dsimp only
      rw [hdrain, Option.map_some, ← hdata]
      simp only [Except.map, List.take_append_drop]

end Reading
