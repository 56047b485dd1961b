import FsspecDb.Lib.Mealy

/-!
# A cache with expiry, in order of use

One list of pairs with the time of their insertion, the least recently used
first. A hit moves a pair to the end, an insert drops from the front what
exceeds the capacity. The rules: what `find` sees after each operation, and
that everything held is what was last inserted under its key.
-/

namespace Lru

variable {K V : Type*} [DecidableEq K]

structure Limits where
  ttl : Option Nat
  capacity : Option Nat

structure Item (K V : Type*) where
  key : K
  value : V
  inserted : Nat

inductive Call (K V : Type*) where
  | get (key : K)
  | insert (key : K) (value : V)
  | clear

def find (key : K) (items : List (Item K V)) : Option (Item K V) :=
  items.find? fun item => item.key = key

def without (key : K) (items : List (Item K V)) : List (Item K V) :=
  items.filter fun item => item.key ≠ key

/- At least `ttl` old. -/
def old (ttl : Option Nat) (now : Nat) (item : Item K V) : Bool :=
  ttl.any fun ttl => decide (item.inserted + ttl ≤ now)

def get (limits : Limits) (now : Nat) (key : K) (items : List (Item K V)) :
    Option V × List (Item K V) :=
  match find key items with
  | none => (none, items)
  | some item =>
    if old limits.ttl now item then (none, without key items)
    else (some item.value, without key items ++ [item])

/- From the front until at most `n` remain. -/
def shrink : Option Nat → List (Item K V) → List (Item K V)
  | none, items => items
  | some n, items => items.drop (items.length - n)

def insert (limits : Limits) (now : Nat) (key : K) (value : V) (items : List (Item K V)) :
    List (Item K V) :=
  if limits.capacity = some 0 then items
  else shrink limits.capacity (without key items ++ [⟨key, value, now⟩])

/- Only `get` answers anything. -/
def step (limits : Limits) (items : List (Item K V)) (call : Nat × Call K V) :
    Option V × List (Item K V) :=
  match call.2 with
  | .get key => get limits call.1 key items
  | .insert key value => (none, insert limits call.1 key value items)
  | .clear => (none, [])

/-! ### What is found -/

@[simp]
theorem find_nil (key : K) : find key ([] : List (Item K V)) = none := rfl

theorem find_cons (key : K) (item : Item K V) (items : List (Item K V)) :
    find key (item :: items) = if item.key = key then some item else find key items := by
  unfold find
  by_cases h : item.key = key <;> simp [h]

theorem find_some {key : K} {items : List (Item K V)} {item : Item K V}
    (h : find key items = some item) : item ∈ items ∧ item.key = key :=
  ⟨List.mem_of_find?_eq_some h, by simpa using List.find?_some h⟩

theorem find_eq_none {key : K} {items : List (Item K V)} :
    find key items = none ↔ key ∉ items.map Item.key := by
  simp [find, List.find?_eq_none]

theorem find_without (k key : K) (items : List (Item K V)) :
    find k (without key items) = if k = key then none else find k items := by
  induction items with
  | nil => simp [without]
  | cons item items ih =>
    by_cases hkey : item.key = key
    · have hdropped : without key (item :: items) = without key items := by
        simp [without, hkey]
      rw [hdropped, ih, find_cons]
      by_cases hk : k = key
      · rw [if_pos hk, if_pos hk]
      · rw [if_neg hk, if_neg hk, if_neg (fun h => hk (h.symm.trans hkey))]
    · have hkept : without key (item :: items) = item :: without key items := by
        simp [without, hkey]
      rw [hkept, find_cons, find_cons, ih]
      by_cases hk : k = key
      · rw [if_pos hk, if_pos hk, if_neg (fun h => hkey (h.trans hk))]
      · rw [if_neg hk, if_neg hk]

theorem find_without_append (k : K) (item : Item K V) (items : List (Item K V)) :
    find k (without item.key items ++ [item]) =
      if k = item.key then some item else find k items := by
  have happend : find k (without item.key items ++ [item]) =
      (find k (without item.key items)).or (find k [item]) := List.find?_append
  rw [happend, find_without, find_cons]
  by_cases hk : k = item.key
  · rw [if_pos hk, if_pos hk, if_pos hk.symm]
    rfl
  · rw [if_neg hk, if_neg hk, if_neg (fun h => hk h.symm), find_nil]
    exact Option.or_none

theorem map_without (key : K) (items : List (Item K V)) :
    (without key items).map Item.key = (items.map Item.key).filter fun k => k ≠ key := by
  rw [List.filter_map]
  rfl

theorem without_subset {key : K} {items : List (Item K V)} {item : Item K V}
    (h : item ∈ without key items) : item ∈ items ∧ item.key ≠ key := by
  simpa [without] using h

/-! ### Distinct keys -/

def Distinct (items : List (Item K V)) : Prop := (items.map Item.key).Nodup

omit [DecidableEq K] in
theorem distinct_nil : Distinct ([] : List (Item K V)) := List.nodup_nil

theorem distinct_without (key : K) {items : List (Item K V)} (h : Distinct items) :
    Distinct (without key items) := by
  unfold Distinct
  rw [map_without]
  exact h.filter _

theorem distinct_append (item : Item K V) {items : List (Item K V)} (h : Distinct items) :
    Distinct (without item.key items ++ [item]) := by
  have hwithout := distinct_without item.key h
  unfold Distinct at hwithout ⊢
  rw [List.map_append, List.nodup_append]
  refine ⟨hwithout, by simp, ?_⟩
  intro a ha b hb
  rw [map_without] at ha
  have hne : a ≠ item.key := by simpa using (List.mem_filter.mp ha).2
  have heq : b = item.key := by simpa using hb
  rw [heq]
  exact hne

/-! ### The last insert under a key -/

/- What was inserted last under each key since the last `clear`, and when. -/
def record (last : K → Option (V × Nat)) (call : Nat × Call K V) : K → Option (V × Nat) :=
  match call.2 with
  | .get _ => last
  | .insert key value => fun k => if k = key then some (value, call.1) else last k
  | .clear => fun _ => none

def lastInsert (calls : List (Nat × Call K V)) : K → Option (V × Nat) :=
  calls.foldl record fun _ => none

/- Nothing more than fits is held, and everything held was last inserted so. -/
structure Sound (limits : Limits) (last : K → Option (V × Nat)) (items : List (Item K V)) :
    Prop where
  bounded : ∀ n, limits.capacity = some n → items.length ≤ n
  recorded : ∀ item ∈ items, last item.key = some (item.value, item.inserted)

omit [DecidableEq K] in
theorem Sound.nil (limits : Limits) (last : K → Option (V × Nat)) : Sound limits last [] :=
  ⟨fun _ _ => Nat.zero_le _, fun _ h => absurd h List.not_mem_nil⟩

theorem without_length_lt {key : K} {items : List (Item K V)} {item : Item K V}
    (h : find key items = some item) : (without key items).length < items.length := by
  obtain ⟨hmem, hkey⟩ := find_some h
  exact List.length_filter_lt_length_iff_exists.mpr ⟨item, hmem, by simp [hkey]⟩

theorem Sound.get {limits : Limits} {last : K → Option (V × Nat)} {items : List (Item K V)}
    (h : Sound limits last items) (now : Nat) (key : K) :
    Sound limits last (get limits now key items).2 := by
  unfold Lru.get
  cases hfind : find key items with
  | none => exact h
  | some item =>
    have hshorter := without_length_lt hfind
    dsimp only
    split
    · refine ⟨fun n hn => ?_, fun other hother => h.recorded other (without_subset hother).1⟩
      have hfits := h.bounded n hn
      dsimp only
      omega
    · refine ⟨fun n hn => ?_, fun other hother => ?_⟩
      · have hfits := h.bounded n hn
        rw [List.length_append, List.length_singleton]
        omega
      · rcases List.mem_append.mp hother with hold | hlast
        · exact h.recorded other (without_subset hold).1
        · rw [List.mem_singleton.mp hlast]
          exact h.recorded item (find_some hfind).1

omit [DecidableEq K] in
theorem shrink_bounded (capacity : Option Nat) (items : List (Item K V)) (n : Nat)
    (h : capacity = some n) : (shrink capacity items).length ≤ n := by
  rw [h]
  simp only [shrink, List.length_drop]
  omega

omit [DecidableEq K] in
theorem shrink_subset {capacity : Option Nat} {items : List (Item K V)} {item : Item K V}
    (h : item ∈ shrink capacity items) : item ∈ items := by
  cases capacity with
  | none => exact h
  | some n => exact List.mem_of_mem_drop h

theorem Sound.insert {limits : Limits} {last : K → Option (V × Nat)} {items : List (Item K V)}
    (h : Sound limits last items) (now : Nat) (key : K) (value : V) :
    Sound limits (record last (now, .insert key value)) (insert limits now key value items) := by
  unfold Lru.insert
  split
  · next hzero =>
    -- nothing is held when nothing fits
    have hempty : items = [] := List.length_eq_zero_iff.mp (Nat.le_zero.mp (h.bounded 0 hzero))
    rw [hempty]
    exact Sound.nil limits _
  · refine ⟨fun n hn => shrink_bounded _ _ n hn, fun item hitem => ?_⟩
    rcases List.mem_append.mp (shrink_subset hitem) with hold | hnew
    · obtain ⟨hmem, hne⟩ := without_subset hold
      simp only [record, if_neg hne]
      exact h.recorded item hmem
    · rw [List.mem_singleton.mp hnew]
      simp only [record, ite_true]

theorem Sound.step {limits : Limits} {last : K → Option (V × Nat)} {items : List (Item K V)}
    (h : Sound limits last items) (call : Nat × Call K V) :
    Sound limits (record last call) (step limits items call).2 := by
  obtain ⟨now, request⟩ := call
  cases request with
  | get key => exact h.get now key
  | insert key value => exact h.insert now key value
  | clear => exact Sound.nil limits _

theorem run_sound (limits : Limits) (calls : List (Nat × Call K V))
    (last : K → Option (V × Nat)) (items : List (Item K V)) (h : Sound limits last items) :
    Sound limits (calls.foldl record last) (Mealy.run (step limits) items calls).2 := by
  induction calls generalizing last items with
  | nil => exact h
  | cons call calls ih => exact ih (record last call) _ (h.step call)

/- A hit is the last insert under the key, and less than `ttl` ago. -/
theorem get_hit (limits : Limits) (calls : List (Nat × Call K V)) (now : Nat) (key : K)
    (value : V)
    (h : (get limits now key (Mealy.run (step limits) [] calls).2).1 = some value) :
    ∃ inserted, lastInsert calls key = some (value, inserted) ∧
      ∀ ttl, limits.ttl = some ttl → now < inserted + ttl := by
  have hsound := run_sound limits calls (fun _ => none) [] (Sound.nil limits _)
  unfold get at h
  cases hfind : find key (Mealy.run (step limits) [] calls).2 with
  | none => simp [hfind] at h
  | some item =>
    cases hold : old limits.ttl now item with
    | true => simp [hfind, hold] at h
    | false =>
      have hvalue : item.value = value := by simpa [hfind, hold] using h
      obtain ⟨hmem, hkey⟩ := find_some hfind
      refine ⟨item.inserted, ?_, fun ttl httl => ?_⟩
      · rw [← hkey, ← hvalue]
        exact hsound.recorded item hmem
      · have hyoung : ¬ item.inserted + ttl ≤ now := by simpa [old, httl] using hold
        omega

end Lru
