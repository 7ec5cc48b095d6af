/-!
# Dictionaries with text keys

`Entries` works on lists of pairs in increasing order of their keys: `insert` puts a pair into its
place and replaces the one that has its key, so a list built by insertions keeps the last value
given for each key (`Entries.get?_insert_self`, `Entries.get?_insert_of_ne`). `Dict` is such a
list together with the proof that it is in order.
-/

namespace VersionedModel

variable {α β : Type}

namespace Entries

/-- Keys in increasing order, hence no key twice. -/
def Sorted (es : List (String × α)) : Prop :=
  es.Pairwise fun a b => a.1 < b.1

/-- Set the value of a key. -/
def insert (k : String) (x : α) : List (String × α) → List (String × α)
  | [] => [(k, x)]
  | e :: es =>
    if k < e.1 then (k, x) :: e :: es
    else if e.1 < k then e :: insert k x es
    else (k, x) :: es

/-- The value of a key. -/
def get? (k : String) (es : List (String × α)) : Option α :=
  (es.find? fun e => e.1 == k).map Prod.snd

/-- Whether a key has a value. -/
def contains (k : String) (es : List (String × α)) : Bool :=
  (get? k es).isSome

/-- Drop a key. -/
def erase (k : String) (es : List (String × α)) : List (String × α) :=
  es.filter fun e => !(e.1 == k)

/-- Set the values of many keys, one after the other. -/
def insertMany (es : List (String × α)) (new : List (String × α)) : List (String × α) :=
  new.foldl (fun acc e => insert e.1 e.2 acc) es

/-- Pairs in any order, put in order; of pairs with one key the last counts. -/
def ofList (es : List (String × α)) : List (String × α) :=
  insertMany [] es

theorem insert_nil (k : String) (x : α) : insert k x [] = [(k, x)] := rfl

theorem insert_cons (k : String) (x : α) (e : String × α) (es : List (String × α)) :
    insert k x (e :: es) =
      if k < e.1 then (k, x) :: e :: es
      else if e.1 < k then e :: insert k x es
      else (k, x) :: es :=
  rfl

theorem mem_insert {k : String} {x : α} {a : String × α} {es : List (String × α)}
    (h : a ∈ insert k x es) : a = (k, x) ∨ a ∈ es := by
  induction es with
  | nil => simpa [insert_nil] using h
  | cons e es ih =>
    rw [insert_cons] at h
    split at h
    · simpa using h
    · split at h
      · rcases List.mem_cons.1 h with rfl | h
        · simp
        · rcases ih h with h | h <;> simp [h]
      · rcases List.mem_cons.1 h with rfl | h <;> simp [*]

theorem eq_of_not_lt {a b : String} (h₁ : ¬a < b) (h₂ : ¬b < a) : a = b :=
  String.le_antisymm (String.not_lt.1 h₂) (String.not_lt.1 h₁)

theorem Sorted.insert {es : List (String × α)} (h : Sorted es) (k : String) (x : α) :
    Sorted (insert k x es) := by
  induction es with
  | nil => simp [insert_nil, Sorted]
  | cons e es ih =>
    obtain ⟨he, hes⟩ := List.pairwise_cons.1 h
    rw [insert_cons]
    split
    · next hk =>
      refine List.pairwise_cons.2 ⟨fun a ha => ?_, h⟩
      rcases List.mem_cons.1 ha with rfl | ha
      · exact hk
      · exact String.lt_trans hk (he a ha)
    · split
      · next hk =>
        refine List.pairwise_cons.2 ⟨fun a ha => ?_, ih hes⟩
        rcases mem_insert ha with rfl | ha
        · exact hk
        · exact he a ha
      · next h₁ h₂ =>
        exact List.pairwise_cons.2 ⟨fun a ha => eq_of_not_lt h₁ h₂ ▸ he a ha, hes⟩

theorem Sorted.insertMany {es : List (String × α)} (h : Sorted es) (new : List (String × α)) :
    Sorted (insertMany es new) := by
  induction new generalizing es with
  | nil => exact h
  | cons e new ih => exact ih (h.insert e.1 e.2)

theorem Sorted.erase {es : List (String × α)} (h : Sorted es) (k : String) :
    Sorted (erase k es) :=
  h.filter _

theorem Sorted.map {es : List (String × α)} (h : Sorted es) (f : α → β) :
    Sorted (es.map fun e => (e.1, f e.2)) := by
  unfold Sorted
  exact List.pairwise_map.2 h

theorem sorted_ofList (es : List (String × α)) : Sorted (ofList es) :=
  Sorted.insertMany List.Pairwise.nil es

theorem get?_insert_self (k : String) (x : α) (es : List (String × α)) :
    get? k (insert k x es) = some x := by
  induction es with
  | nil => simp [insert_nil, get?]
  | cons e es ih =>
    rw [insert_cons]
    split
    · simp [get?]
    · split
      · next hk =>
        have : (e.1 == k) = false := by
          simp only [beq_eq_false_iff_ne]
          rintro rfl
          exact String.lt_irrefl _ hk
        simpa [get?, List.find?_cons, this] using ih
      · simp [get?]

theorem get?_insert_of_ne {k j : String} (h : j ≠ k) (x : α) (es : List (String × α)) :
    get? j (insert k x es) = get? j es := by
  have hk : (k == j) = false := by simpa using h.symm
  induction es with
  | nil => simp [insert_nil, get?, hk]
  | cons e es ih =>
    rw [insert_cons]
    split
    · simp [get?, List.find?_cons, hk]
    · split
      · by_cases he : (e.1 == j) = true
        · simp [get?, he]
        · simpa [get?, List.find?_cons, he] using ih
      · next h₁ h₂ =>
        have : (e.1 == j) = false := eq_of_not_lt h₁ h₂ ▸ hk
        simp [get?, hk, this]

end Entries

/-- A dictionary: pairs in increasing order of their keys. -/
structure Dict (α : Type) where
  /-- The pairs. -/
  toList : List (String × α)
  /-- They are in order. -/
  sorted : Entries.Sorted toList

namespace Dict

/-- The dictionary without keys. -/
def empty : Dict α := ⟨[], List.Pairwise.nil⟩

instance : EmptyCollection (Dict α) := ⟨empty⟩

instance : Inhabited (Dict α) := ⟨empty⟩

/-- Set the value of a key. -/
def insert (d : Dict α) (k : String) (x : α) : Dict α :=
  ⟨Entries.insert k x d.toList, d.sorted.insert k x⟩

/-- Drop a key. -/
def erase (d : Dict α) (k : String) : Dict α :=
  ⟨Entries.erase k d.toList, d.sorted.erase k⟩

/-- The value of a key. -/
def get? (d : Dict α) (k : String) : Option α :=
  Entries.get? k d.toList

/-- Whether a key has a value. -/
def contains (d : Dict α) (k : String) : Bool :=
  (d.get? k).isSome

/-- The number of keys. -/
def size (d : Dict α) : Nat :=
  d.toList.length

/-- Whether there is no key. -/
def isEmpty (d : Dict α) : Bool :=
  d.toList.isEmpty

/-- Pairs in any order as a dictionary; of pairs with one key the last counts. -/
def ofList (es : List (String × α)) : Dict α :=
  ⟨Entries.ofList es, Entries.sorted_ofList es⟩

/-- Lay one dictionary over another: the keys of `upper` win. -/
def overlay (d upper : Dict α) : Dict α :=
  ⟨Entries.insertMany d.toList upper.toList, d.sorted.insertMany upper.toList⟩

/-- Change every value. -/
def map (f : α → β) (d : Dict α) : Dict β :=
  ⟨d.toList.map fun e => (e.1, f e.2), d.sorted.map f⟩

theorem toList_injective {d e : Dict α} (h : d.toList = e.toList) : d = e := by
  cases d
  cases e
  cases h
  rfl

@[simp] theorem get?_insert_self (d : Dict α) (k : String) (x : α) :
    (d.insert k x).get? k = some x :=
  Entries.get?_insert_self k x d.toList

theorem get?_insert_of_ne (d : Dict α) {k j : String} (h : j ≠ k) (x : α) :
    (d.insert k x).get? j = d.get? j :=
  Entries.get?_insert_of_ne h x d.toList

@[simp] theorem get?_empty (k : String) : (empty : Dict α).get? k = none := rfl

instance [DecidableEq α] : DecidableEq (Dict α) := fun d e =>
  if h : d.toList = e.toList then isTrue (toList_injective h)
  else isFalse fun he => h (he ▸ rfl)

end Dict

end VersionedModel
