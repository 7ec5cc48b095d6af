import VersionedModel.Proofs.Model.Operations
import VersionedModel.Proofs.Model.Places

/-!
# Clearing

A cleared instance keeps the nested instances that were opened, and an instance that was never
written has none. Still, no sequence of operations tells one from the other, nor whether somebody
has looked into a nested instance (`Model.answers_clear`).
-/

namespace VersionedModel

namespace Model

open Schema (Compiled Everywhere)

/-- The operation asks something, or looks into nested instances to ask something there. -/
inductive Operation.Looks : Operation → Prop
  | ask (q : Query) : Looks (.ask q)
  | inside (name : String) {o : Operation} (h : Looks o) : Looks (.inside name o)

/-- Looking into nested instances leaves an instance that cannot be told apart. -/
theorem Operation.Looks.indistinct {o : Operation} (h : o.Looks) {m : Model}
    (hs : m.schema.Sound) (hfits : Storage.Fits m.schema m.slots) :
    m.Indistinct (o.run m).2 := by
  induction h generalizing m with
  | ask q => exact .refl hs hfits
  | @inside name o _ ih =>
    cases hp : m.schema.resolve? name with
    | none =>
      rw [run_inside_of_unbound hp]
      exact .refl hs hfits
    | some p =>
      cases hk : p.target.schema? with
      | none =>
        rw [run_inside_of_leaf hp hk]
        exact .refl hs hfits
      | some t =>
        have hmem := Schema.mem_of_resolve? hp
        have hused := (ih (m := ofSlots t (Storage.inner t m.slots p.slot)) (hs.nested hmem hk)
          (hfits.nested hmem hk)).slots
        rw [run_inside_of_model hp hk]
        exact ⟨rfl, .set_opened hs hmem hk hused.agree, hfits,
          hfits.set_opened hs hmem hk hused.right⟩

/-- **Clearing gives a new instance back.** After whatever an instance went through, which may be
any operations, a new one can be made with its schema, name, defaults and settings, and once the
instance is cleared it answers every sequence of operations as the new one does. And it makes no
difference to any later answer whether somebody has looked into nested instances. -/
theorem answers_clear {m : Model} (hcompiled : Everywhere Compiled m.schema) (hm : m.Reachable) :
    (∀ o : Operation, (o.run m).2.Reachable) ∧
      withOptions m.schema ⟨some m.name, m.defaults, m.settings⟩ =
        .ok { m with slots := m.schema.fresh } ∧
      (∀ ops, answers ops m.clear = answers ops { m with slots := m.schema.fresh }) ∧
      ∀ o : Operation, o.Looks → ∀ ops, answers ops (o.run m).2 = answers ops m := by
  have hs := Schema.sound_of_compiled hcompiled
  have hfits := hm.fits hs
  have hclear : Indistinct { m with slots := m.schema.fresh } m.clear :=
    ⟨rfl, Storage.indistinct_fresh hs hfits⟩
  exact ⟨hm.run hs, hm.withOptions_eq, hclear.answers_eq hs, fun o ho =>
    (ho.indistinct hs hfits).answers_eq hs⟩

open Schema.Sample (shipment compiled_shipment) in
/-- A shipment that is cleared keeps its parcel open, but there is nothing in it any more, and it
takes a new label as a new shipment does; and looking into the parcel of a new shipment leaves no
trace. -/
theorem answers_clear_of_shipped :
    Everywhere Compiled shipped.schema ∧ shipped.Reachable ∧ (new shipment).Reachable ∧
      withOptions shipment ⟨some "shipment", ∅, ∅⟩ = .ok (new shipment) ∧
      shipped.clear.slots ≠ (new shipment).slots ∧
      answers [.inside "content" (.ask (.readAt ["tag"])),
          .attempt (.writeAt ["content", "tag"] (.set (.bytes [3]))),
          .ask (.readAt ["parcel", "label"])] shipped.clear =
        [.read (.ok .missing), .done (.ok ()), .read (.ok (.value (.bytes [3])))] ∧
      answers [.ask (.readAt ["content", "tag"])]
          ((Operation.inside "parcel" (.ask .own)).run (new shipment)).2 =
        [.read (.ok .missing)] := by
  have hs : Everywhere Compiled shipped.schema := compiled_shipment
  have hnew : (new shipment).Reachable := ⟨shipment, Options.none, _, rfl, .refl⟩
  obtain ⟨-, hfresh, hclear, -⟩ := answers_clear hs reachable_shipped
  obtain ⟨-, -, -, hlooks⟩ := answers_clear (m := new shipment) compiled_shipment hnew
  refine ⟨hs, reachable_shipped, hnew, hfresh, fun h => ?_, (hclear _).trans rfl,
    (hlooks _ (.inside _ (.ask _)) _).trans rfl⟩
  cases (List.cons.inj (List.cons.inj h).2).1

end Model

end VersionedModel
