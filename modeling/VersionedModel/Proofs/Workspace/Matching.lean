import VersionedModel.Proofs.Lookup
import VersionedModel.Workspace.Basic

/-!
# What a stack matches

A stack shows the members that take part under given settings by their names. If several of them
have one name, the last one is shown (`Workspace.get?_matching`), in the place of the first
(`Workspace.pairwise_keys_matching`); so the one that is shown and the one that the name owes its
place to may be different members.
-/

namespace VersionedModel

/-- If a value comes before another one among what is picked from a list, the first place that gives
it is before the first place that gives the other. -/
theorem findIdx_lt_of_idxOf_filterMap_lt {α β : Type} [DecidableEq β] {pick : α → Option β}
    {l : List α} {a b : β} (h : (l.filterMap pick).idxOf a < (l.filterMap pick).idxOf b) :
    l.findIdx (pick · = some a) < l.findIdx (pick · = some b) := by
  induction l with
  | nil => simp at h
  | cons x l ih =>
    rw [List.filterMap_cons] at h
    simp only [List.findIdx_cons]
    cases hx : pick x with
    | none =>
      rw [hx] at h
      simpa using ih h
    | some y =>
      rw [hx] at h
      have hb : y ≠ b := by
        -- Nothing comes before the head.
        rintro rfl
        simp at h
      by_cases ha : y = a
      · subst ha
        simp [hb]
      · rw [List.idxOf_cons_ne _ ha, List.idxOf_cons_ne _ hb] at h
        simpa [ha, hb] using ih (Nat.lt_of_succ_lt_succ h)

namespace Workspace

variable (w : Workspace) (stack : StackId) (settings : Settings)

/-- The component takes part under the given settings, and has the name. -/
def TakesPartAs (name : String) (c : Component Schema) : Prop :=
  w.passes stack settings c = true ∧ c.name = some name

instance (name : String) : DecidablePred (w.TakesPartAs stack settings name) := fun _ =>
  inferInstanceAs (Decidable (_ ∧ _))

/-- The name under which a component takes part, if it does. -/
def shownName (c : Component Schema) : Option String :=
  if w.passes stack settings c then c.name else none

theorem shownName_eq_some_iff {name : String} {c : Component Schema} :
    w.shownName stack settings c = some name ↔ w.TakesPartAs stack settings name c := by
  rw [shownName, TakesPartAs]
  split <;> simp [*]

/-- The names are those under which members take part, each where it first came. -/
theorem keys_matching :
    Listing.keys (w.matching stack settings) =
      ((w.members stack).filterMap (w.shownName stack settings)).eraseDups := by
  rw [matching, byName, Listing.keys_ofList, Listing.keys, List.map_filterMap,
    List.filterMap_filter]
  congr 2
  funext c
  rw [shownName]
  split
  · cases c.name <;> rfl
  · rfl

variable {w stack settings} in
theorem mem_keys_matching {name : String} :
    name ∈ Listing.keys (w.matching stack settings) ↔
      ∃ c ∈ w.members stack, w.passes stack settings c = true ∧ c.name = some name := by
  simp only [keys_matching, List.mem_eraseDups, List.mem_filterMap, shownName_eq_some_iff,
    TakesPartAs]

theorem pairwise_keys_matching :
    (Listing.keys (w.matching stack settings)).Pairwise fun a b =>
      (w.members stack).findIdx (w.TakesPartAs stack settings a ·) <
        (w.members stack).findIdx (w.TakesPartAs stack settings b ·) := by
  rw [keys_matching]
  refine (pairwise_idxOf_eraseDups _).imp fun {a b} hlt => ?_
  simpa only [shownName_eq_some_iff] using findIdx_lt_of_idxOf_filterMap_lt hlt

/-- Of the members that take part under a name, the last one is shown. -/
theorem get?_matching (name : String) :
    Listing.get? name (w.matching stack settings) =
      (w.members stack).reverse.find? (w.TakesPartAs stack settings name ·) := by
  rw [matching, byName, Listing.get?_ofList, ← List.filterMap_reverse, ← List.filter_reverse]
  induction (w.members stack).reverse with
  | nil => rfl
  | cons c cs ih =>
    rw [List.find?_cons, ← ih]
    by_cases hpass : w.passes stack settings c = true
    · rw [List.filter_cons_of_pos hpass, List.filterMap_cons]
      cases hname : c.name with
      | none => simp [TakesPartAs, hname]
      | some n =>
        rw [Option.map_some]
        dsimp only
        rw [Listing.get?_cons]
        by_cases hn : n = name <;> simp [TakesPartAs, hpass, hname, hn]
    · rw [List.filter_cons_of_neg hpass]
      simp [TakesPartAs, hpass]

variable {w stack settings}

theorem mem_matching_iff {name : String} {c : Component Schema} :
    (name, c) ∈ w.matching stack settings ↔
      ∃ before after, w.members stack = before ++ c :: after ∧
        w.TakesPartAs stack settings name c ∧
          ∀ d ∈ after, ¬w.TakesPartAs stack settings name d := by
  have hnodup : (Listing.keys (w.matching stack settings)).Nodup := Listing.nodup_keys_ofList _
  have hget : (name, c) ∈ w.matching stack settings ↔
      Listing.get? name (w.matching stack settings) = some c :=
    ⟨Entries.get?_eq_some_of_mem hnodup, Entries.mem_of_get?_eq_some⟩
  rw [hget, get?_matching, List.find?_eq_some_iff_append]
  simp only [decide_eq_true_eq, Bool.not_eq_true', decide_eq_false_iff_not]
  constructor
  · rintro ⟨hc, after, before, hmembers, hafter⟩
    refine ⟨before.reverse, after.reverse, ?_, hc, fun d hd => hafter d (List.mem_reverse.1 hd)⟩
    have := congrArg List.reverse hmembers
    simpa using this
  · rintro ⟨before, after, hmembers, hc, hafter⟩
    refine ⟨hc, after.reverse, before.reverse, by simp [hmembers], fun d hd => ?_⟩
    exact hafter d (List.mem_reverse.1 hd)

/-- A name that a stack matches is that of a member that takes part. -/
theorem mem_matching {name : String} {c : Component Schema}
    (h : (name, c) ∈ w.matching stack settings) :
    c ∈ w.members stack ∧ w.passes stack settings c = true ∧ c.name = some name := by
  obtain ⟨before, after, hmembers, hc, -⟩ := mem_matching_iff.1 h
  exact ⟨by rw [hmembers]; exact List.mem_append_right _ List.mem_cons_self, hc⟩

variable (w stack settings) in
/-- **A stack shows, under every name under which members take part, the last of these, in the order
in which the names first came.** -/
theorem matching_shows_last_in_first_place :
    (Listing.keys (w.matching stack settings)).Nodup ∧
      (∀ name, name ∈ Listing.keys (w.matching stack settings) ↔
        ∃ c ∈ w.members stack, w.TakesPartAs stack settings name c) ∧
      (∀ name c, (name, c) ∈ w.matching stack settings ↔
        ∃ before after, w.members stack = before ++ c :: after ∧
          w.TakesPartAs stack settings name c ∧
            ∀ d ∈ after, ¬w.TakesPartAs stack settings name d) ∧
      (Listing.keys (w.matching stack settings)).Pairwise fun a b =>
        (w.members stack).findIdx (w.TakesPartAs stack settings a ·) <
          (w.members stack).findIdx (w.TakesPartAs stack settings b ·) :=
  ⟨Listing.nodup_keys_ofList _, fun _ => mem_keys_matching, fun _ _ => mem_matching_iff,
    w.pairwise_keys_matching stack settings⟩

end Workspace

end VersionedModel
