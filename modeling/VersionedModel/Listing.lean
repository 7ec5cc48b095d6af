/-!
# Listings

Lists of pairs in the order in which their keys first came. `Listing.put` replaces the value of a
key that is there, in its place, and adds a new key at the end; so a listing built by `put` has no
key twice, keeps the order of first appearance and holds the last value given for each key.
-/

namespace VersionedModel

namespace Listing

variable {α : Type}

/-- Set the value of a key. -/
def put (k : String) (x : α) : List (String × α) → List (String × α)
  | [] => [(k, x)]
  | e :: es => if e.1 = k then (k, x) :: es else e :: put k x es

/-- The keys, in order. -/
def keys (es : List (String × α)) : List String :=
  es.map Prod.fst

/-- The value of a key. -/
def get? (k : String) (es : List (String × α)) : Option α :=
  (es.find? fun e => e.1 == k).map Prod.snd

/-- Values set one after the other. -/
def ofList (pairs : List (String × α)) : List (String × α) :=
  pairs.foldl (fun es e => put e.1 e.2 es) []

theorem put_nil (k : String) (x : α) : put k x [] = [(k, x)] := rfl

theorem put_cons (k : String) (x : α) (e : String × α) (es : List (String × α)) :
    put k x (e :: es) = if e.1 = k then (k, x) :: es else e :: put k x es :=
  rfl

theorem get?_put_self (k : String) (x : α) (es : List (String × α)) :
    get? k (put k x es) = some x := by
  induction es with
  | nil => simp [put_nil, get?]
  | cons e es ih =>
    rw [put_cons]
    split
    · simp [get?]
    · next h => simpa [get?, List.find?_cons, h] using ih

theorem get?_put_of_ne {j k : String} (h : j ≠ k) (x : α) (es : List (String × α)) :
    get? j (put k x es) = get? j es := by
  have hk : (k == j) = false := by simpa using h.symm
  induction es with
  | nil => simp [put_nil, get?, hk]
  | cons e es ih =>
    rw [put_cons]
    split
    · next he => simp [get?, hk, he]
    · by_cases he : (e.1 == j) = true
      · simp [get?, he]
      · simpa [get?, List.find?_cons, he] using ih

theorem mem_keys_put {j k : String} {x : α} {es : List (String × α)} :
    j ∈ keys (put k x es) ↔ j = k ∨ j ∈ keys es := by
  induction es with
  | nil => simp [put_nil, keys]
  | cons e es ih =>
    simp only [keys] at ih
    rw [put_cons]
    split
    · next he => simp [keys, he]
    · simp only [keys, List.map_cons, List.mem_cons, ih]
      constructor <;> rintro (h | h | h) <;> simp [h]

theorem nodup_keys_put {k : String} {x : α} {es : List (String × α)} (h : (keys es).Nodup) :
    (keys (put k x es)).Nodup := by
  induction es with
  | nil => simp [put_nil, keys]
  | cons e es ih =>
    obtain ⟨he, hes⟩ := List.nodup_cons.1 h
    rw [put_cons]
    split
    · next hk => exact List.nodup_cons.2 ⟨hk ▸ he, hes⟩
    · next hk =>
      refine List.nodup_cons.2 ⟨fun hm => ?_, ih hes⟩
      rcases mem_keys_put.1 hm with hm | hm
      · exact hk hm
      · exact he hm

end Listing

end VersionedModel
