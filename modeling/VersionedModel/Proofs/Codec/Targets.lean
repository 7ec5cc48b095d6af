import VersionedModel.Proofs.Codec.AliasKeys
import VersionedModel.Proofs.Codec.Fitting

/-!
# Codecs and serializers as targets

A codec makes a serializer for a model from the components that take part. A serializer that is the
target itself is scoped to the model first, and then it knows what the model's own defaults look
like, whatever fields were declared for it (`Model.guesses`). Both read the same tree from a payload
and fail alike where there is none; what they fit the tree to may differ. So the two loads succeed
and fail together, and they leave the same exactly if either way each leaf is given the same last
(`Model.agree_load_declared_iff`).
-/

namespace VersionedModel

open Schema (Compiled Everywhere)

namespace Serializer

/-- The tree that a payload carries, in an envelope if the settings ask for one. -/
def treeOf (name : String) (settings : Settings) (payload : List UInt8) : Except Error Json :=
  match Json.ofBytes payload with
  | none => .error (.decode .json .malformed)
  | some outer => if settings.flag envelopeKey then openEnvelope name outer else .ok outer

/-- The tree is read first and fitted then. -/
theorem decodeJson_eq (name : String) (fields : List (String × Shape)) (settings : Settings)
    (payload : List UInt8) :
    decodeJson name fields settings payload =
      (fun tree => (Shape.model fields).restore (.ofJson tree)) <$>
        treeOf name settings payload := by
  rw [decodeJson, treeOf]
  cases Json.ofBytes payload with
  | none => rfl
  | some outer =>
    dsimp only
    split
    · cases openEnvelope name outer <;> rfl
    · rfl

theorem openEnvelope_eq_error {name : String} {outer : Json} {e : Error}
    (h : openEnvelope name outer = .error e) : ∃ cause, e = .decode .json cause := by
  rw [openEnvelope.eq_def] at h
  split at h
  · split at h <;> cases h
    exact ⟨_, rfl⟩
  · cases h
    exact ⟨_, rfl⟩

/-- A tree that cannot be read is an error of decoding. -/
theorem treeOf_eq_error {name : String} {settings : Settings} {payload : List UInt8} {e : Error}
    (h : treeOf name settings payload = .error e) : ∃ cause, e = .decode .json cause := by
  rw [treeOf] at h
  split at h
  · cases h
    exact ⟨_, rfl⟩
  · split at h
    · exact openEnvelope_eq_error h
    · cases h

end Serializer

namespace Model

/-- A serializer for JSON without settings, for which some fields were declared. -/
def declared (name : String) (fields : List (String × Shape)) : Target :=
  .serializer (.json name fields ∅)

/-- The shapes of the model's own defaults. -/
def guesses (m : Model) : List (String × Shape) :=
  Shape.ofEntries m.defaults.toList

theorem carries_iff {m : Model} {call : Settings} {payload : List UInt8} {tree : Json} :
    m.Carries call payload tree ↔
      Serializer.treeOf m.name (m.effective call) payload = .ok tree := by
  rw [Carries, Serializer.treeOf]
  cases Json.ofBytes payload with
  | none =>
    refine ⟨fun ⟨outer, hread, _⟩ => ?_, nofun⟩
    cases hread
  | some outer =>
    simp only [Option.some.injEq, exists_eq_left']
    split
    · exact Iff.rfl
    · rw [Except.ok.injEq]

section Raw

variable (w : Workspace) (m : Model) (payload : List UInt8) (call : Settings)

/-- Through the codec, the tree is fitted to the shapes of what takes part. -/
theorem rawOf_plainJson :
    m.rawOf w plainJson payload call =
      (fun tree => (Shape.model (m.shapes w call)).restore (.ofJson tree)) <$>
        Serializer.treeOf m.name (m.effective call) payload := by
  rw [rawOf, serializerFor_plainJson]
  change Serializer.decode _ _ _ = _
  rw [Serializer.decode, Serializer.decodeJson_eq, Serializer.treeOf, Serializer.treeOf,
    Settings.flag_overlay_self]
  rfl

/-- **Through a serializer, the tree is fitted to the shapes of the model's own defaults**, whatever
fields were declared. -/
theorem rawOf_declared (name : String) (fields : List (String × Shape)) :
    m.rawOf w (declared name fields) payload call =
      (fun tree => (Shape.model m.guesses).restore (.ofJson tree)) <$>
        Serializer.treeOf m.name (m.effective call) payload := by
  rw [rawOf]
  change Serializer.decode (.json m.name m.guesses ((∅ : Settings).overlay (m.effective call)))
    payload (m.effective call) = _
  rw [Serializer.decode, Serializer.decodeJson_eq, Dict.empty_overlay, Serializer.treeOf,
    Serializer.treeOf, Settings.flag_overlay_self]

end Raw

theorem load_declared_of_carries {m : Model} {call : Settings} {payload : List UInt8} {tree : Json}
    (h : m.Carries call payload tree) (w : Workspace) (name : String)
    (fields : List (String × Shape)) :
    m.load w (declared name fields) payload call =
      loadState ((Shape.model m.guesses).restore (.ofJson tree)) m := by
  rw [load, rawOf_declared, carries_iff.1 h]
  rfl

/-! ### The two loads -/

/-- A value is loaded into what the model stores. -/
theorem loadState_eq (v : Value) : loadState v = changing fun s => Storage.load s v := by
  cases v with
  | array items =>
    funext m
    exact congrArg (fun c => changing (fun _ => c) m) (Storage.load_array m.schema items).symm
  | map entries =>
    funext m
    exact congrArg (fun c => changing (fun _ => c) m) (Storage.load_map m.schema entries).symm
  | _ => rfl

/-- The model holds what the load leaves, and fails where the load does. -/
theorem loadState_of_load {m : Model} {v : Value} :
    (∀ after, Storage.load m.schema v m.slots = .ok () after →
        loadState v m = .ok () { m with slots := after }) ∧
      ∀ e, Storage.load m.schema v m.slots = .error e m.slots → loadState v m = .error e m := by
  rw [loadState_eq, changing]
  exact ⟨fun after h => by rw [h], fun e h => by rw [h]⟩

theorem agree_iff {m : Model} {a b : List Slot} :
    Agree { m with slots := a } { m with slots := b } ↔ Storage.Agree m.schema a b :=
  ⟨Agree.slots, fun h => ⟨rfl, h⟩⟩

/-- **A codec and a serializer as targets succeed and fail together**, whatever fields were declared
for the serializer. A payload that carries no tree is the same error of decoding. Where a nested
model is given what it cannot take, both loads name the kind of the first such value, as they have
fitted it. Otherwise both succeed, and what they leave agrees exactly if the tree gives the same
last to each leaf, fitted to the shapes of the fields that take part or to those of the model's own
defaults. -/
theorem agree_load_declared_iff {m : Model} (hcompiled : Everywhere Compiled m.schema)
    (hm : m.Reachable) (w : Workspace) (name : String) (fields : List (String × Shape))
    (payload : List UInt8) (call : Settings) :
    (∃ cause, m.load w plainJson payload call = .error (.decode .json cause) m ∧
        m.load w (declared name fields) payload call = .error (.decode .json cause) m) ∨
      ∃ tree, m.Carries call payload tree ∧
        ((∃ place x k k', Storage.FirstMisfit m.schema (.ofJson tree) place x ∧
            m.load w plainJson payload call = .error (.unsupportedPayload (x.coerce k).kind) m ∧
            m.load w (declared name fields) payload call =
              .error (.unsupportedPayload (x.coerce k').kind) m) ∨
          ∃ n n', m.load w plainJson payload call = .ok () n ∧
            m.load w (declared name fields) payload call = .ok () n' ∧
            (n.Agree n' ↔ ∀ names place p, m.schema.LeafAt names place p →
              Storage.givenAt? m.schema ((Shape.model m.guesses).restore (.ofJson tree)) place =
                Storage.givenAt? m.schema ((Shape.model (m.shapes w call)).restore (.ofJson tree))
                  place)) := by
  have hs := Schema.sound_of_compiled hcompiled
  cases htree : Serializer.treeOf m.name (m.effective call) payload with
  | error e =>
    obtain ⟨cause, rfl⟩ := Serializer.treeOf_eq_error htree
    rw [load, load, rawOf_plainJson, rawOf_declared, htree]
    exact .inl ⟨cause, rfl, rfl⟩
  | ok tree =>
    have hcarries := carries_iff.2 htree
    refine .inr ⟨tree, hcarries, ?_⟩
    rw [load_of_carries hcarries, load_declared_of_carries hcarries]
    -- Both values are the tree, fitted, so they pass the check with it or fail where it does.
    have hfit := Shape.fitted_restore (.model (m.shapes w call)) (.ofJson tree)
    have hguess := Shape.fitted_restore (.model m.guesses) (.ofJson tree)
    obtain ⟨hok, herror⟩ := Storage.load_fitted hs hfit m.slots
    obtain ⟨hok', herror'⟩ := Storage.load_fitted hs hguess m.slots
    cases hcheck : Storage.check m.schema (.ofJson tree) with
    | error e =>
      obtain ⟨place, x, hx, -⟩ := (Storage.check_spec hs _).2 e hcheck
      obtain ⟨k, hk⟩ := herror place x hx
      obtain ⟨k', hk'⟩ := herror' place x hx
      exact .inl ⟨place, x, k, k', hx, loadState_of_load.2 _ hk, loadState_of_load.2 _ hk'⟩
    | ok u =>
      obtain ⟨a, ha⟩ := hok hcheck
      obtain ⟨b, hb⟩ := hok' hcheck
      refine .inr ⟨_, _, loadState_of_load.1 a ha, loadState_of_load.1 b hb, ?_⟩
      rw [agree_iff]
      exact Storage.agree_of_loads_iff hs (hm.fits hs) ha hb fun place =>
        (Storage.isSome_givenAt?_fitted hguess place).trans
          (Storage.isSome_givenAt?_fitted hfit place).symm

/-! ### Parcels through a serializer -/

open Schema.Sample

/-- A serializer for parcels, with all fields that they have. -/
def forParcels : Target := declared "parcel" (Shape.fieldsOf parcel)

/-- A parcel with a default for its label. -/
def stamped : Model :=
  { new parcel with defaults := .ofList [("label", .bytes [0])] }

/-- The default for the label shows that it is bytes, so it is decoded on either way. -/
theorem agree_load_forParcels :
    Everywhere Compiled stamped.schema ∧ stamped.Reachable ∧
      ∃ n n', load depot plainJson (single "label" "AQI=") ∅ stamped = .ok () n ∧
        load depot forParcels (single "label" "AQI=") ∅ stamped = .ok () n' ∧
        n.read "label" = .ok (.value (.bytes [1, 2])) ∧ n.Agree n' := by
  have hcompiled : Everywhere Compiled stamped.schema := compiled_parcel
  have hm : stamped.Reachable :=
    ⟨parcel, ⟨none, .ofList [("label", .bytes [0])], ∅⟩, stamped, rfl, .refl⟩
  have hcarries : stamped.Carries ∅ (single "label" "AQI=")
      (.object [("label", .string "AQI=")]) := carries_of_single rfl _ _
  have hload : load depot plainJson (single "label" "AQI=") ∅ stamped =
      .ok () { stamped with slots := [.leaf none, .leaf (some (.bytes [1, 2]))] } := by
    rw [load_object hcarries]
    rfl
  refine ⟨hcompiled, hm, ?_⟩
  rcases agree_load_declared_iff hcompiled hm depot "parcel" (Shape.fieldsOf parcel)
      (single "label" "AQI=") ∅ with ⟨_, he, -⟩ | ⟨tree, htree, hloads⟩
  · rw [hload] at he
    cases he
  · obtain rfl : tree = .object [("label", .string "AQI=")] :=
      Except.ok.inj ((carries_iff.1 htree).symm.trans (carries_iff.1 hcarries))
    rcases hloads with ⟨_, _, _, _, -, he, -⟩ | ⟨n, n', hn, hn', hiff⟩
    · rw [hload] at he
      cases he
    · have hread : n.read "label" = .ok (.value (.bytes [1, 2])) := by
        rw [hload] at hn
        cases hn
        rfl
      exact ⟨n, n', hn, hn', hread, hiff.2 fun _ _ _ _ => rfl⟩

/-- A shipment whose parcel is bytes by default. -/
def boxed : Model :=
  { new shipment with defaults := .ofList [("parcel", .bytes [])] }

/-- Without a default the label stays a text on the way through the serializer, although the
serializer was declared to have bytes there; and a default that is no map makes an error name
another kind. -/
theorem load_forParcels_ne :
    Everywhere Compiled (new parcel).schema ∧ (new parcel).Reachable ∧
      load depot plainJson (single "label" "AQI=") ∅ (new parcel) =
        .ok () { new parcel with slots := [.leaf none, .leaf (some (.bytes [1, 2]))] } ∧
      load depot forParcels (single "label" "AQI=") ∅ (new parcel) =
        .ok () { new parcel with slots := [.leaf none, .leaf (some (.string "AQI="))] } ∧
      ¬Agree { new parcel with slots := [.leaf none, .leaf (some (.bytes [1, 2]))] }
        { new parcel with slots := [.leaf none, .leaf (some (.string "AQI="))] } ∧
      Everywhere Compiled boxed.schema ∧ boxed.Reachable ∧
      load depot plainJson (single "parcel" "AQI=") ∅ boxed =
        .error (.unsupportedPayload .string) boxed ∧
      load depot (declared "shipment" (Shape.fieldsOf shipment)) (single "parcel" "AQI=") ∅ boxed =
        .error (.unsupportedPayload .bytes) boxed := by
  have hlabel := carries_single "label" "AQI="
  have hparcel : boxed.Carries ∅ (single "parcel" "AQI=")
      (.object [("parcel", .string "AQI=")]) := carries_of_single rfl _ _
  refine ⟨compiled_parcel, reachable_parcel, ?_, ?_, fun h => ?_, compiled_shipment,
    ⟨shipment, ⟨none, .ofList [("parcel", .bytes [])], ∅⟩, boxed, rfl, .refl⟩, ?_, ?_⟩
  · rw [load_object hlabel]
    rfl
  · rw [forParcels, load_declared_of_carries hlabel]
    rfl
  · cases h.slots with
    | intro leaf _ => cases leaf _ label_mem rfl
  · rw [load_object hparcel]
    rfl
  · rw [load_declared_of_carries hparcel]
    rfl

end Model

end VersionedModel
