import VersionedModel.Proofs.Json.Tokens
import VersionedModel.Proofs.Lookup

/-!
# What is written can be read

The parser puts the tokens of a shape together again, whatever containers stand open around it
(`Written.foldlM_tokens`), and the shape of a tree has the tree as its meaning as long as the
nesting stays within the limit (`Written.treeWithin_writtenOf`). So reading the text of a tree gives
the tree back (`Json.parse_render`), and so does reading the bytes of the text
(`Json.ofBytes_bytesOf`).
-/

namespace VersionedModel

namespace Json

namespace Written

/-! ### Putting tokens together -/

/-- A value may open a sequence as well as follow in it. -/
theorem foldlM_firstItem (w : Written) (rest : List Token) (frames : List Frame) :
    (w.tokens ++ rest).foldlM step (.firstItem frames) =
      (w.tokens ++ rest).foldlM step (.value (.array [] :: frames)) := by
  match w with
  | .null | .bool _ | .number _ | .text _ | .object [] | .object (_ :: _) =>
    simp only [tokens, List.cons_append, List.foldlM_cons]
    rfl
  | .array [] | .array (_ :: _) =>
    simp only [tokens, List.cons_append, List.foldlM_cons]
    rfl

mutual

/-- **The tokens of a shape are put together to it**, whatever stands open around it. -/
theorem foldlM_tokens (w : Written) (rest : List Token) (frames : List Frame) :
    (w.tokens ++ rest).foldlM step (.value frames) = rest.foldlM step (deliver w frames) := by
  match w with
  | .null | .bool _ | .number _ | .text _ => rfl
  | .array [] => rfl
  | .array (w :: ws) =>
    simp only [tokens, List.cons_append, List.append_assoc, List.foldlM_cons]
    -- The first item opens the sequence, and the others follow behind commas.
    change List.foldlM step (.firstItem frames) _ = _
    rw [foldlM_firstItem, foldlM_tokens w]
    change List.foldlM step (.afterItem [w] frames) _ = _
    rw [foldlM_itemTokens ws, List.foldlM_cons]
    simp [step]
  | .object [] => rfl
  | .object ((key, w) :: ms) =>
    simp only [tokens, List.cons_append, List.append_assoc, List.foldlM_cons]
    change List.foldlM step (.value (.object [] key :: frames)) _ = _
    rw [foldlM_tokens w]
    change List.foldlM step (.afterMember [(key, w)] frames) _ = _
    rw [foldlM_memberTokens ms, List.foldlM_cons]
    simp [step]

theorem foldlM_itemTokens (ws : List Written) (rest : List Token) (items : List Written)
    (frames : List Frame) :
    (itemTokens ws ++ rest).foldlM step (.afterItem items frames) =
      rest.foldlM step (.afterItem (ws.reverse ++ items) frames) := by
  match ws with
  | [] => rfl
  | w :: ws =>
    simp only [itemTokens, List.cons_append, List.append_assoc, List.foldlM_cons]
    change List.foldlM step (.value (.array items :: frames)) _ = _
    rw [foldlM_tokens w]
    change List.foldlM step (.afterItem (w :: items) frames) _ = _
    rw [foldlM_itemTokens ws, List.reverse_cons, List.append_assoc, List.singleton_append]

theorem foldlM_memberTokens (ms : List (Option String × Written)) (rest : List Token)
    (members : List (Option String × Written)) (frames : List Frame) :
    (memberTokens ms ++ rest).foldlM step (.afterMember members frames) =
      rest.foldlM step (.afterMember (ms.reverse ++ members) frames) := by
  match ms with
  | [] => rfl
  | (key, w) :: ms =>
    simp only [memberTokens, List.cons_append, List.append_assoc, List.foldlM_cons]
    change List.foldlM step (.value (.object members key :: frames)) _ = _
    rw [foldlM_tokens w]
    change List.foldlM step (.afterMember ((key, w) :: members) frames) _ = _
    rw [foldlM_memberTokens ms, List.reverse_cons, List.append_assoc, List.singleton_append]

end

theorem ofTokens?_tokens (w : Written) : ofTokens? w.tokens = some w := by
  have h := foldlM_tokens w [] []
  rw [List.append_nil] at h
  rw [ofTokens?, h]
  rfl

/-! ### The meaning of what is written -/

mutual

theorem treeWithin_writtenOf (j : Json) (hj : Sendable j) {limit : ℕ} (hd : j.depth ≤ limit) :
    (writtenOf j).treeWithin limit = some j := by
  match j with
  | .null | .bool _ | .string _ => simp [writtenOf, treeWithin]
  | .integer n =>
    rw [writtenOf, treeWithin]
    exact number?_integer hj.1 hj.2
  | .float x =>
    rw [writtenOf, treeWithin]
    exact (numeralOfFloat_spec hj).2
  | .array items =>
    rw [depth] at hd
    rw [writtenOf, treeWithin, if_neg (by omega), treesWithin_itemsWritten items hj (by omega),
      Option.map_some]
  | .object members =>
    rw [depth] at hd
    rw [writtenOf, treeWithin, if_neg (by omega),
      membersWithin_membersWritten members hj.2 (by omega), Option.map_some]

theorem treesWithin_itemsWritten (js : List Json) (hj : ItemsSendable js) {limit : ℕ}
    (hd : depthItems js ≤ limit) : treesWithin limit (itemsWritten js) = some js := by
  match js with
  | [] => rfl
  | j :: js =>
    rw [depthItems, max_le_iff] at hd
    rw [itemsWritten, treesWithin, treeWithin_writtenOf j hj.1 hd.1,
      treesWithin_itemsWritten js hj.2 hd.2]
    rfl

theorem membersWithin_membersWritten (ms : List (String × Json)) (hj : MembersSendable ms)
    {limit : ℕ} (hd : depthMembers ms ≤ limit) :
    membersWithin limit (membersWritten ms) = some ms := by
  match ms with
  | [] => rfl
  | (k, j) :: ms =>
    rw [depthMembers, max_le_iff] at hd
    rw [membersWritten, membersWithin, treeWithin_writtenOf j hj.1 hd.1,
      membersWithin_membersWritten ms hj.2 hd.2]
    rfl

end

end Written

/-! ### Members in order -/

mutual

theorem ordered_of_sendable (j : Json) (hj : Sendable j) : j.ordered = j := by
  match j with
  | .null | .bool _ | .integer _ | .float _ | .string _ => simp [ordered]
  | .array items => rw [ordered, orderedItems_of_sendable items hj]
  | .object members =>
    rw [ordered, orderedMembers_of_sendable members hj.2, Entries.ofList_of_sorted hj.1]

theorem orderedItems_of_sendable (js : List Json) (hj : ItemsSendable js) :
    orderedItems js = js := by
  match js with
  | [] => rfl
  | j :: js => rw [orderedItems, ordered_of_sendable j hj.1, orderedItems_of_sendable js hj.2]

theorem orderedMembers_of_sendable (ms : List (String × Json)) (hj : MembersSendable ms) :
    orderedMembers ms = ms := by
  match ms with
  | [] => rfl
  | (k, j) :: ms =>
    rw [orderedMembers, ordered_of_sendable j hj.1, orderedMembers_of_sendable ms hj.2]

end

theorem orderedItems_eq_map (js : List Json) : orderedItems js = js.map ordered := by
  induction js with
  | nil => rfl
  | cons j js ih => rw [orderedItems, ih, List.map_cons]

theorem orderedMembers_eq_map (ms : List (String × Json)) :
    orderedMembers ms = ms.map fun e => (e.1, e.2.ordered) := by
  induction ms with
  | nil => rfl
  | cons e ms ih => rw [orderedMembers, ih, List.map_cons]

theorem orderedMembers_ofList (ms : List (String × Json)) :
    orderedMembers (Entries.ofList ms) = Entries.ofList (orderedMembers ms) := by
  rw [orderedMembers_eq_map, orderedMembers_eq_map]
  exact (Entries.ofList_map (fun _ j => j.ordered) ms).symm

mutual

/-- What is in order stays as it is. -/
theorem ordered_ordered (j : Json) : j.ordered.ordered = j.ordered := by
  match j with
  | .null | .bool _ | .integer _ | .float _ | .string _ => simp [ordered]
  | .array items => rw [ordered, ordered, orderedItems_orderedItems items]
  | .object members =>
    rw [ordered, ordered, orderedMembers_ofList, orderedMembers_orderedMembers members,
      Entries.ofList_of_sorted (Entries.sorted_ofList _)]

theorem orderedItems_orderedItems (js : List Json) :
    orderedItems (orderedItems js) = orderedItems js := by
  match js with
  | [] => rfl
  | j :: js => rw [orderedItems, orderedItems, ordered_ordered j, orderedItems_orderedItems js]

theorem orderedMembers_orderedMembers (ms : List (String × Json)) :
    orderedMembers (orderedMembers ms) = orderedMembers ms := by
  match ms with
  | [] => rfl
  | (k, j) :: ms =>
    rw [orderedMembers, orderedMembers, ordered_ordered j, orderedMembers_orderedMembers ms]

end

/-! ### Texts and bytes -/

/-- **Reading the text of a tree gives the tree**, in either style. -/
theorem parse_render (style : Style) {j : Json} (hj : Sendable j)
    (hd : j.depth ≤ Written.nestingLimit) : parse (j.render style) = some j := by
  have htokens : tokens? (j.chars style 0) = some (writtenOf j).tokens := by
    have h := tokensFrom_chars style 0 j hj ends_nil
    rw [List.append_nil] at h
    rw [tokens?, h, tokensFrom, Option.map_some, List.append_nil]
  have hwritten : Written.parse (j.render style) = some (writtenOf j) := by
    rw [Written.parse, render, String.toList_ofList, htokens]
    exact Written.ofTokens?_tokens _
  rw [parse, hwritten]
  change (Written.tree? (writtenOf j)).bind _ = _
  rw [Written.tree?, Written.treeWithin_writtenOf j hj hd, Option.bind_some,
    ordered_of_sendable j hj]
  rfl

theorem toList_byteArray (bs : ByteArray) : bs.toList = bs.data.toList := by
  -- The loop collects in reverse order; what is left to collect goes down to nothing.
  have hloop : ∀ k i r, i + k = bs.size →
      ByteArray.toList.loop bs i r = r.reverse ++ bs.data.toList.drop i := by
    intro k
    induction k with
    | zero =>
      intro i r hi
      have hlen : bs.data.toList.length ≤ i := by
        rw [Array.length_toList]
        exact hi.ge
      rw [ByteArray.toList.loop, if_neg (by omega), List.drop_eq_nil_of_le hlen, List.append_nil]
    | succ k ih =>
      intro i r hi
      have hlt : i < bs.data.size := show i < bs.size by omega
      have hdrop : bs.data.toList.drop i = bs.get! i :: bs.data.toList.drop (i + 1) := by
        rw [List.drop_eq_getElem_cons (by simpa using hlt), Array.getElem_toList]
        congr 1
        exact (getElem!_pos bs.data i hlt).symm
      rw [ByteArray.toList.loop, if_pos (by omega), ih (i + 1) _ (by omega), List.reverse_cons,
        List.append_assoc, List.singleton_append, hdrop]
  rw [ByteArray.toList, hloop bs.size 0 [] (Nat.zero_add _)]
  rfl

/-- Reading the UTF-8 form of a text is reading the text. -/
theorem ofBytes_bytesOf (s : String) : ofBytes (bytesOf s) = parse s := by
  have hbytes : (⟨(bytesOf s).toArray⟩ : ByteArray) = s.toUTF8 := by
    rw [bytesOf, toList_byteArray, Array.toArray_toList]
  have hread : String.fromUTF8? s.toUTF8 = some s := by
    exact dif_pos s.isValidUTF8
  rw [ofBytes, hbytes, hread]
  rfl

end Json

end VersionedModel
