import VersionedModel.Proofs.Bindings.WellFormed

/-!
# Tables that grow

`bind` and `bindAlias` put one name at the end of a table, so whatever a name leads to it leads to
ever after (`Bindings.resolve?_append`). A name that is bound to a new slot leads to this slot
(`WellFormed.resolve?_bind`), which no other name leads to yet (`WellFormed.slot_lt_of_resolve?`),
and a name that is bound to another leads to wherever that one leads
(`WellFormed.exists_resolve?_bindAlias`). What becomes of an alias is known beforehand: whether it
closes a cycle, has no target, takes a name that is taken, or is added (`WellFormed.aliasLaw`).
-/

namespace VersionedModel

namespace Bindings

variable {γ : Type} {table table' : List (Binding γ)} {name target : String}

/-! ### Adding a name -/

theorem bind_eq_ok {c : γ} :
    bind table name c = .ok table' ↔
      ¬contains table name = true ∧ table' = table ++ [.primary name (slotCount table) c] := by
  rw [bind]
  by_cases h : contains table name = true
  · simp [h]
  · simp [h, eq_comm]

theorem bindAlias_eq_ok :
    bindAlias table name target = .ok table' ↔
      ∃ primary, follow table name target [name] target (table.length + 1) = .ok primary ∧
        ¬contains table name = true ∧ table' = table ++ [.aliasOf name primary] := by
  rw [bindAlias, Outcome.bind_eq_ok]
  refine exists_congr fun primary => and_congr_right fun _ => ?_
  by_cases h : contains table name = true
  · rw [if_pos h]
    exact ⟨nofun, fun hn => absurd h hn.1⟩
  · rw [if_neg h]
    exact ⟨fun he => ⟨h, by cases he; rfl⟩, fun he => by rw [he.2]; rfl⟩

/-! ### What names lead to -/

theorem contains_append :
    contains (table ++ table') name = true ↔
      contains table name = true ∨ ∃ b ∈ table', b.name = name := by
  rw [contains_iff, contains_iff, List.map_append, List.mem_append, List.mem_map (l := table')]

theorem find?_append {b : Binding γ} (h : find? table name = some b) :
    find? (table ++ table') name = some b := by
  rw [find?] at h ⊢
  rw [List.find?_append, h, Option.some_or]

theorem contains_of_resolve? {p : Primary γ} (h : resolve? table name = some p) :
    contains table name = true := by
  by_contra hc
  rw [resolve?_of_not_contains hc] at h
  cases h

/-- What a name leads to is not changed by names that come later. -/
theorem resolve?_append {p : Primary γ} (h : resolve? table name = some p) :
    resolve? (table ++ table') name = some p := by
  rw [resolve?] at h ⊢
  cases hb : find? table name with
  | none =>
    rw [hb] at h
    cases h
  | some b =>
    rw [hb] at h
    rw [find?_append hb]
    cases b with
    | primary => exact h
    | aliasOf _ primary =>
      dsimp only at h ⊢
      cases hp : find? table primary with
      | none =>
        rw [hp] at h
        cases h
      | some c =>
        rw [hp] at h
        rwa [find?_append hp]

/-- Names that are bound are followed to their primaries, on a way that meets no name twice. -/
theorem follow_of_resolve? {p : Primary γ} {visited : List String}
    (hp : resolve? table target = some p) (htarget : target ∉ visited)
    (hname : p.name ∉ visited) :
    follow table name target visited target (table.length + 1) = .ok p.name := by
  have hnew : ¬visited.contains target = true := by rwa [List.contains_iff_mem]
  rw [follow, if_neg hnew]
  rw [resolve?] at hp
  cases hfind : find? table target with
  | none =>
    rw [hfind] at hp
    cases hp
  | some b =>
    rw [hfind] at hp
    cases b with
    | primary own slot c =>
      cases hp
      rfl
    | aliasOf own next =>
      dsimp only at hp ⊢
      cases hnext : find? table next with
      | none =>
        rw [hnext] at hp
        cases hp
      | some b' =>
        rw [hnext] at hp
        cases b' with
        | aliasOf => cases hp
        | primary own' slot c =>
          cases hp
          obtain ⟨-, rfl⟩ := mem_of_find?_eq_some hnext
          -- The next name is that of a primary, so it is not the one that led there.
          have hnew : ¬(target :: visited).contains (Binding.primary own' slot c).name = true := by
            rw [List.contains_iff_mem, List.mem_cons]
            rintro (he | hmem)
            · rw [he, hfind] at hnext
              cases hnext
            · exact hname hmem
          obtain ⟨steps, hsteps⟩ : ∃ steps, table.length = steps + 1 :=
            Nat.exists_eq_add_one.2 (List.length_pos_of_mem (mem_of_find?_eq_some hfind).1)
          rw [hsteps, follow, if_neg hnew, hnext]

/-- A name that is not bound can be bound to whatever leads somewhere. -/
theorem bindAlias_of_resolve? {p : Primary γ} (hname : ¬contains table name = true)
    (hp : resolve? table target = some p) :
    bindAlias table name target = .ok (table ++ [.aliasOf name p.name]) := by
  have hne : ∀ other, contains table other = true → other ∉ [name] := fun other hother hmem =>
    hname (List.mem_singleton.1 hmem ▸ hother)
  refine bindAlias_eq_ok.2 ⟨p.name, follow_of_resolve? hp ?_ ?_, hname, rfl⟩
  · exact hne target (contains_of_resolve? hp)
  · exact hne p.name (contains_name (mem_primaries_of_resolve? hp))

/-- No name can be bound to itself. -/
theorem bindAlias_self (table : List (Binding γ)) (name : String) :
    bindAlias table name name = .error (.aliasCycle name) := by
  rw [bindAlias, follow, if_pos (by simp)]
  rfl

namespace WellFormed

/-- Aliases are followed to what the name leads to. -/
theorem exists_resolve?_of_follow (h : WellFormed table) {current primary : String}
    {visited : List String} {steps : Nat}
    (hf : follow table name target visited current steps = .ok primary) :
    ∃ p, resolve? table current = some p ∧ p.name = primary := by
  induction steps generalizing visited current with
  | zero => cases hf
  | succ steps ih =>
    rw [follow] at hf
    split at hf
    · cases hf
    · split at hf
      · next hfind =>
        cases hf
        rw [resolve?, hfind]
        obtain ⟨-, hname⟩ := mem_of_find?_eq_some hfind
        exact ⟨_, rfl, rfl⟩
      · next next hfind =>
        -- The next name is that of a primary, so the alias leads where it leads.
        obtain ⟨p, hp, rfl⟩ := h.aliases _ _ (mem_of_find?_eq_some hfind).1
        obtain ⟨q, hq, hname⟩ := ih hf
        obtain rfl := Option.some.inj ((h.resolve?_name hp).symm.trans hq)
        have hprimary := h.find?_name (mem_primaries.1 hp)
        simp only [Binding.name] at hprimary
        rw [resolve?, hfind]
        dsimp only
        rw [hprimary]
        exact ⟨_, rfl, hname⟩
      · cases hf

/-- A new primary is behind its own name. -/
theorem resolve?_bind (h : WellFormed table) {c : γ}
    (hb : Bindings.bind table name c = .ok table') :
    resolve? table' name = some ⟨name, slotCount table, c⟩ := by
  obtain ⟨hwf, hp⟩ := h.bind hb
  exact hwf.resolve?_name (p := ⟨name, slotCount table, c⟩) (by rw [hp]; simp)

/-- **A new alias leads to what its target leads to.** -/
theorem exists_resolve?_bindAlias (h : WellFormed table)
    (hb : Bindings.bindAlias table name target = .ok table') :
    ∃ p, resolve? table target = some p ∧ resolve? table' name = some p := by
  obtain ⟨hwf, hprimaries⟩ := h.bindAlias hb
  obtain ⟨primary, hf, -, rfl⟩ := bindAlias_eq_ok.1 hb
  obtain ⟨p, hp, rfl⟩ := h.exists_resolve?_of_follow hf
  refine ⟨p, hp, hwf.resolve?_alias ?_ (by simp)⟩
  rw [hprimaries]
  exact mem_primaries_of_resolve? hp

/-- What other names lead to is not changed by one more. -/
theorem resolve?_snoc_of_ne (h : WellFormed table) {b : Binding γ} {other : String}
    (hne : b.name ≠ other) : resolve? (table ++ [b]) other = resolve? table other := by
  cases hr : resolve? table other with
  | some p => exact resolve?_append hr
  | none =>
    refine resolve?_of_not_contains fun hc => ?_
    rcases contains_append.1 hc with hc | ⟨b', hb', hname⟩
    · have hsome := h.resolve?_isSome hc
      rw [hr] at hsome
      cases hsome
    · exact hne (List.mem_singleton.1 hb' ▸ hname)

/-- A slot that a name leads to is one of those that are there. -/
theorem slot_lt_of_resolve? (h : WellFormed table) {p : Primary γ}
    (hp : resolve? table name = some p) : p.slot < slotCount table :=
  h.slot_lt (mem_primaries_of_resolve? hp)

end WellFormed

/-! ### What becomes of an alias -/

/-- The target leads back to the name. -/
def LeadsBack (table : List (Binding γ)) (name target : String) : Prop :=
  target = name ∨ ∃ p, resolve? table target = some p ∧ p.name = name

/-- What becomes of a name that is to be bound to the primary behind a target: what is wrong with
the target counts before the name being taken. -/
structure AliasLaw (table : List (Binding γ)) (name target : String) : Prop where
  /-- There is a cycle exactly if the target leads back. -/
  cycle_iff :
    bindAlias table name target = .error (.aliasCycle name) ↔ LeadsBack table name target
  /-- Else the target is missing exactly if it is not bound. -/
  unknown_iff : ¬LeadsBack table name target →
    (bindAlias table name target = .error (.unknownAliasTarget name target) ↔
      ¬contains table target = true)
  /-- Else the name is taken exactly if it is bound. -/
  duplicate_iff : ¬LeadsBack table name target → contains table target = true →
    (bindAlias table name target = .error (.duplicateField name) ↔ contains table name = true)
  /-- Else the name leads where the target leads, and all others lead where they led. -/
  added : ¬LeadsBack table name target → contains table target = true →
    ¬contains table name = true →
    ∃ p table', resolve? table target = some p ∧ bindAlias table name target = .ok table' ∧
      resolve? table' name = some p ∧
      ∀ other, other ≠ name → resolve? table' other = resolve? table other

theorem bindAlias_of_follow_error {e : Error}
    (h : follow table name target [name] target (table.length + 1) = .error e) :
    bindAlias table name target = .error e := by
  rw [bindAlias, h]
  rfl

theorem bindAlias_of_unbound (hne : target ≠ name) (ht : ¬contains table target = true) :
    bindAlias table name target = .error (.unknownAliasTarget name target) := by
  rw [contains, Option.not_isSome_iff_eq_none] at ht
  refine bindAlias_of_follow_error ?_
  rw [follow, if_neg (by simpa using hne), ht]

theorem bindAlias_of_taken {p : Primary γ} (hback : ¬LeadsBack table name target)
    (hp : resolve? table target = some p) (hname : contains table name = true) :
    bindAlias table name target = .error (.duplicateField name) := by
  obtain ⟨hne, hpne⟩ := not_or.1 hback
  have hfollow : follow table name target [name] target (table.length + 1) = .ok p.name :=
    follow_of_resolve? hp (by simpa using hne) (by simpa using fun he => hpne ⟨p, hp, he⟩)
  rw [bindAlias, hfollow]
  exact if_pos hname

namespace WellFormed

/-- A target that is an alias of the name leads back to it in its second step. -/
theorem bindAlias_of_leadsBack (h : WellFormed table) (hback : LeadsBack table name target) :
    Bindings.bindAlias table name target = .error (.aliasCycle name) := by
  by_cases hne : target = name
  · rw [hne, bindAlias_self]
  obtain ⟨p, hp, rfl⟩ := hback.resolve_left hne
  obtain ⟨b, hb, rfl⟩ := List.mem_map.1 (contains_iff.1 (contains_of_resolve? hp))
  cases b with
  | primary own slot c =>
    -- A primary leads to itself, so it would have the name.
    have hown := h.resolve?_name (p := ⟨own, slot, c⟩) (mem_primaries.2 hb)
    rw [Binding.name, hown] at hp
    cases hp
    exact absurd rfl hne
  | aliasOf own next =>
    obtain ⟨q, hq, rfl⟩ := h.aliases own next hb
    have hfind := h.find?_name hb
    rw [Binding.name, h.resolve?_alias hq hb] at hp
    cases hp
    obtain ⟨steps, hsteps⟩ : ∃ steps, table.length = steps + 1 :=
      Nat.exists_eq_add_one.2 (List.length_pos_of_mem hb)
    refine bindAlias_of_follow_error ?_
    rw [hsteps, follow, if_neg (by simpa using hne), hfind]
    dsimp only
    rw [follow, if_pos (by simp)]

/-- **It is known beforehand what becomes of an alias.** -/
theorem aliasLaw (h : WellFormed table) (name target : String) : AliasLaw table name target := by
  by_cases hback : LeadsBack table name target
  · exact ⟨iff_of_true (h.bindAlias_of_leadsBack hback) hback, fun hn => absurd hback hn,
      fun hn => absurd hback hn, fun hn => absurd hback hn⟩
  by_cases ht : contains table target = true
  · obtain ⟨p, hp⟩ := Option.isSome_iff_exists.1 (h.resolve?_isSome ht)
    by_cases hname : contains table name = true
    · have hrun := bindAlias_of_taken hback hp hname
      exact ⟨by simp [hrun, hback], fun _ => by simp [hrun, ht], fun _ _ => by simp [hrun, hname],
        fun _ _ hn => absurd hname hn⟩
    · have hrun := bindAlias_of_resolve? hname hp
      obtain ⟨q, hq, hnew⟩ := h.exists_resolve?_bindAlias hrun
      exact ⟨by simp [hrun, hback], fun _ => by simp [hrun, ht], fun _ _ => by simp [hrun, hname],
        fun _ _ _ => ⟨q, _, hq, hrun, hnew, fun other hne => h.resolve?_snoc_of_ne hne.symm⟩⟩
  · have hrun := bindAlias_of_unbound (fun he => hback (.inl he)) ht
    exact ⟨by simp [hrun, hback], fun _ => iff_of_true hrun ht, fun _ hc => absurd hc ht,
      fun _ hc => absurd hc ht⟩

end WellFormed

end Bindings

end VersionedModel
