import IsvValidation.Config.Response
import IsvValidation.Library.OrderedMap
import IsvValidation.Library.Paging

/-!
# Listing a collection of the NICo API

`forge_get_all` asks for page after page until one is shorter than the size it asked for. It reads the
whole collection of a server which answers with blocks of that size. An endpoint which answers with a
single object takes the same way as a page of one item, so it depends on the size how the loop ends.
-/

namespace IsvValidation.Nico

open Config Library Library.Paging

/-! ## The loop -/

/-- The keys under which the API is known to wrap its arrays. -/
def knownKeys : List String := ["machines", "expectedMachines", "instances", "sites"]

/-- The `for` loop over the known keys, with its `else` branch. -/
def detect (response : Json) : List String → Except PyError Json
  | [] => .ok (.arr (if response.truthy then [response] else []))
  | key :: rest => do
    if ← response.contains key then response.item key
    else detect response rest

/-- The items of one answer. -/
def pageItems (resultKey : Option String) (response : Json) : Except PyError Json :=
  match response with
  | .arr items => .ok (.arr items)
  | response =>
    match resultKey with
    | none => detect response knownKeys
    | some key => do
      if key ≠ "" then
        if ← response.contains key then
          return ← response.item key
      detect response knownKeys

/-- The query of one page. -/
def pageParams (params : OrderedMap String String) (size : ℤ) (number : ℕ) :
    OrderedMap String String :=
  (params.insert "pageSize" (toString size)).insert "pageNumber" (toString number)

/-- `min(page_size, 100)`. -/
def effectivePageSize (pageSize : ℤ) : ℤ := min pageSize 100

/-- One round of the `while` loop, which goes on to the next number after a page that is not short. -/
def readPage (forgeGet : OrderedMap String String → Except PyError Json)
    (params : OrderedMap String String) (resultKey : Option String) (pageSize : ℤ) (number : ℕ) :
    Except PyError (Page ℕ Json) := do
  let response ← forgeGet (pageParams params (effectivePageSize pageSize) number)
  let rows ← (← pageItems resultKey response).elements
  return ⟨rows, if rows.length < effectivePageSize pageSize then none else some (number + 1)⟩

/-- `forge_get_all`, in as many rounds as the limit says. -/
def forgeGetAll (forgeGet : OrderedMap String String → Except PyError Json)
    (params : Option (OrderedMap String String)) (resultKey : Option String) (pageSize : ℤ)
    (limit : ℕ) : Gathered PyError Json :=
  gather (readPage forgeGet (params.getD .empty) resultKey pageSize) limit 1 []

/-! ## Servers -/

/-- The keys which are looked for in an answer that is not a list. -/
def lookedFor (resultKey : Option String) : List String :=
  match resultKey with
  | none => knownKeys
  | some key => if key = "" then knownKeys else key :: knownKeys

/-- An answer carries a block of items: bare, or under the first key it has of those looked for. -/
inductive Carries (resultKey : Option String) (block : List Json) : Json → Prop
  | bare : Carries resultKey block (.arr block)
  | wrapped {fields : List (String × Json)} {before after : List String} {key : String}
      (known : lookedFor resultKey = before ++ key :: after)
      (first : ∀ other ∈ before, fields.lookup other = none)
      (held : fields.lookup key = some (.arr block)) : Carries resultKey block (.obj fields)

/-- The server answers every query for a page of this size with such an answer to its number. -/
def Serves (forgeGet : OrderedMap String String → Except PyError Json)
    (params : OrderedMap String String) (size : ℤ) (answers : ℕ → Json → Prop) : Prop :=
  ∀ (query : OrderedMap String String) (number : ℕ), 1 ≤ number →
    query.get? "pageSize" = some (toString size) →
    query.get? "pageNumber" = some (toString number) →
    (∀ key, key ≠ "pageSize" → key ≠ "pageNumber" → query.get? key = params.get? key) →
    ∃ response, forgeGet query = .ok response ∧ answers number response

/-- The block of a collection which is page `number`. -/
def block (collection : List Json) (size number : ℕ) : List Json :=
  (collection.drop ((number - 1) * size)).take size

variable {forgeGet : OrderedMap String String → Except PyError Json}
  {params : OrderedMap String String} {resultKey : Option String} {pageSize : ℤ}

theorem Serves.answer {size : ℤ} {answers : ℕ → Json → Prop}
    (h : Serves forgeGet params size answers) {number : ℕ} (hnumber : 1 ≤ number) :
    ∃ response, forgeGet (pageParams params size number) = .ok response ∧
      answers number response := by
  apply h _ number hnumber
  · rw [pageParams, OrderedMap.get?_insert, if_neg (by decide), OrderedMap.get?_insert, if_pos rfl]
  · rw [pageParams, OrderedMap.get?_insert, if_pos rfl]
  · intro key hsize hkey
    rw [pageParams, OrderedMap.get?_insert, if_neg hkey, OrderedMap.get?_insert, if_neg hsize]

/-! ## Unwrapping -/

theorem detect_of_none {fields : List (String × Json)} {keys : List String}
    (h : ∀ key ∈ keys, fields.lookup key = none) :
    detect (.obj fields) keys = .ok (.arr (if fields.isEmpty then [] else [.obj fields])) := by
  induction keys with
  | nil =>
    rw [detect, Json.truthy]
    cases fields <;> rfl
  | cons key rest ih =>
    rw [detect, Json.contains, h key List.mem_cons_self]
    exact ih fun other hother ↦ h other (List.mem_cons_of_mem _ hother)

theorem detect_of_some {fields : List (String × Json)} {before after : List String} {key : String}
    {value : Json} (h : ∀ other ∈ before, fields.lookup other = none)
    (hvalue : fields.lookup key = some value) :
    detect (.obj fields) (before ++ key :: after) = .ok value := by
  induction before with
  | nil =>
    rw [List.nil_append, detect, Json.contains, Json.item, hvalue]
    rfl
  | cons first rest ih =>
    rw [List.cons_append, detect, Json.contains, h first List.mem_cons_self]
    exact ih fun other hother ↦ h other (List.mem_cons_of_mem _ hother)

theorem pageItems_obj (resultKey : Option String) (fields : List (String × Json)) :
    pageItems resultKey (.obj fields) = detect (.obj fields) (lookedFor resultKey) := by
  unfold pageItems lookedFor
  match resultKey with
  | none => rfl
  | some key =>
    by_cases hkey : key = ""
    · simp [hkey]
    · simp only [ne_eq, hkey, not_false_eq_true, if_true, if_false, detect]

theorem pageItems_of_carries {items : List Json} {response : Json}
    (h : Carries resultKey items response) : pageItems resultKey response = .ok (.arr items) := by
  match h with
  | .bare => rfl
  | .wrapped known first held =>
    rw [pageItems_obj, known]
    exact detect_of_some first held

/-! ## Servers which answer with blocks -/

theorem readPage_of_serves {collection : List Json} {size : ℕ}
    (hsize : effectivePageSize pageSize = size)
    (h : Serves forgeGet params (effectivePageSize pageSize) fun number response ↦
      Carries resultKey (block collection size number) response)
    {number : ℕ} (hnumber : 1 ≤ number) :
    readPage forgeGet params resultKey pageSize number = .ok ⟨block collection size number,
      if (block collection size number).length < size then none else some (number + 1)⟩ := by
  have ⟨response, hget, hcarries⟩ := h.answer hnumber
  unfold readPage
  rw [hget]
  simp only [bind, Except.bind, pageItems_of_carries hcarries, Json.elements, hsize, Int.ofNat_lt, pure,
    Except.pure]

/-- From each page on, the blocks are what is left of the collection. -/
theorem exists_chain {collection : List Json} {size : ℕ} (hpos : 0 < size)
    (hsize : effectivePageSize pageSize = size)
    (h : Serves forgeGet params (effectivePageSize pageSize) fun number response ↦
      Carries resultKey (block collection size number) response)
    {number : ℕ} (hnumber : 1 ≤ number) :
    ∃ pages, Chain (readPage forgeGet params resultKey pageSize) number pages ∧
      rowsOf pages = collection.drop ((number - 1) * size) := by
  have hread := readPage_of_serves hsize h hnumber
  by_cases hshort : (block collection size number).length < size
  · rw [if_pos hshort] at hread
    refine ⟨_, .last hread, ?_⟩
    rw [rowsOf_cons, rowsOf_nil, List.append_nil, block, List.take_of_length_le]
    rw [block, List.length_take] at hshort
    omega
  · rw [if_neg hshort] at hread
    have ⟨pages, hchain, hpages⟩ := exists_chain hpos hsize h (Nat.le_add_left 1 number)
    refine ⟨_, .more hread hchain, ?_⟩
    have hplace : (number + 1 - 1) * size = (number - 1) * size + size := by
      rw [← Nat.succ_mul]
      congr 1
      omega
    rw [rowsOf_cons, hpages, hplace, ← List.drop_drop, block, List.take_append_drop]
termination_by collection.length - (number - 1) * size
decreasing_by
  have hplace : (number + 1 - 1) * size = (number - 1) * size + size := by
    rw [← Nat.succ_mul]
    congr 1
    omega
  rw [block, List.length_take, List.length_drop] at hshort
  omega

/-! ## Endpoints which answer with a single object -/

/-- Nothing found inside an object is that object. -/
theorem notMem_elements {fields : List (String × Json)} {key : String} {value : Json}
    {rows : List Json} (hvalue : fields.lookup key = some value) (h : value.elements = .ok rows) :
    Json.obj fields ∉ rows := by
  intro hmem
  have hheld : (key, value) ∈ fields := by
    have ⟨before, after, hsplit, _⟩ := List.lookup_eq_some_iff.mp hvalue
    rw [hsplit]
    exact List.mem_append_right before List.mem_cons_self
  match value with
  | .arr items =>
    rw [Json.elements, Except.ok.injEq] at h
    rw [← h] at hmem
    have hinner := List.sizeOf_lt_of_mem hmem
    have houter := List.sizeOf_lt_of_mem hheld
    simp only [Json.obj.sizeOf_spec, Prod.mk.sizeOf_spec, Json.arr.sizeOf_spec] at hinner houter
    omega
  | .obj inner =>
    rw [Json.elements, Except.ok.injEq] at h
    rw [← h, List.mem_map] at hmem
    have ⟨field, _, hfield⟩ := hmem
    exact nomatch hfield
  | .str text =>
    rw [Json.elements, Except.ok.injEq] at h
    rw [← h, List.mem_map] at hmem
    have ⟨c, _, hc⟩ := hmem
    exact nomatch hc
  | .null | .bool _ | .int _ | .float _ | .nonFinite _ => exact nomatch h

/-- An object is unwrapped to something inside of it, or is the item itself. -/
theorem detect_obj_cases (fields : List (String × Json)) (keys : List String) :
    (∃ key value, fields.lookup key = some value ∧ key ∈ keys ∧
        detect (.obj fields) keys = .ok value) ∨
      (∀ key ∈ keys, fields.lookup key = none) ∧
        detect (.obj fields) keys = .ok (.arr (if fields.isEmpty then [] else [.obj fields])) := by
  induction keys with
  | nil => exact .inr ⟨fun _ h ↦ (nomatch h), detect_of_none fun _ h ↦ (nomatch h)⟩
  | cons key rest ih =>
    match hvalue : fields.lookup key with
    | some value =>
      left
      refine ⟨key, value, hvalue, List.mem_cons_self, ?_⟩
      rw [detect, Json.contains, Json.item, hvalue]
      rfl
    | none =>
      have hstep : detect (.obj fields) (key :: rest) = detect (.obj fields) rest := by
        rw [detect, Json.contains, hvalue]
        rfl
      rw [hstep]
      match ih with
      | .inl ⟨other, value, hother, hmem, hdetect⟩ =>
        exact .inl ⟨other, value, hother, List.mem_cons_of_mem _ hmem, hdetect⟩
      | .inr ⟨hnone, hdetect⟩ => exact .inr ⟨List.forall_mem_cons.mpr ⟨hvalue, hnone⟩, hdetect⟩

/-- An endpoint answers every query for a page of this size with the same object. -/
def AnswersWith (forgeGet : OrderedMap String String → Except PyError Json)
    (params : OrderedMap String String) (size : ℤ) (fields : List (String × Json)) : Prop :=
  Serves forgeGet params size fun _ response ↦ response = .obj fields

theorem readPage_of_answersWith {fields : List (String × Json)}
    (h : AnswersWith forgeGet params (effectivePageSize pageSize) fields) {number : ℕ}
    (hnumber : 1 ≤ number) :
    readPage forgeGet params resultKey pageSize number = (do
      let rows ← (← detect (.obj fields) (lookedFor resultKey)).elements
      return ⟨rows, if rows.length < effectivePageSize pageSize then none else some (number + 1)⟩) := by
  have ⟨response, hget, hobject⟩ := h.answer hnumber
  unfold readPage
  rw [hget, hobject, ← pageItems_obj]
  rfl

/-- Where each page is the same rows, the reader stops after the first one or never. -/
theorem returns_same_iff {rows result : List Json}
    (h : ∀ number, 1 ≤ number → readPage forgeGet params resultKey pageSize number = .ok ⟨rows,
      if rows.length < effectivePageSize pageSize then none else some (number + 1)⟩) :
    Returns (readPage forgeGet params resultKey pageSize) 1 result ↔
      rows.length < effectivePageSize pageSize ∧ result = rows := by
  by_cases hshort : rows.length < effectivePageSize pageSize
  · have hlast := h 1 le_rfl
    rw [if_pos hshort] at hlast
    have hreturns := returns_chain (.last hlast)
    rw [rowsOf_cons, rowsOf_nil, List.append_nil] at hreturns
    exact ⟨fun hresult ↦ ⟨hshort, hresult.unique hreturns⟩, fun hresult ↦ hresult.2 ▸ hreturns⟩
  · refine ⟨fun hresult ↦ ?_, fun hresult ↦ absurd hresult.1 hshort⟩
    apply absurd hresult (not_returns_of_endless (I := (1 ≤ ·)) _ le_rfl result)
    intro number hnumber
    rw [h number hnumber, if_neg hshort]
    exact ⟨rows, number + 1, rfl, Nat.le_add_left 1 number⟩

theorem returns_object_iff {fields : List (String × Json)}
    (h : AnswersWith forgeGet params (effectivePageSize pageSize) fields) :
    Returns (readPage forgeGet params resultKey pageSize) 1 [.obj fields] ↔
      2 ≤ pageSize ∧ fields ≠ [] ∧ ∀ key ∈ lookedFor resultKey, fields.lookup key = none := by
  rcases detect_obj_cases fields (lookedFor resultKey) with ⟨key, value, hvalue, hkey, hdetect⟩ | ⟨hnone, hdetect⟩
  · have hnot : ¬ ∀ key ∈ lookedFor resultKey, fields.lookup key = none := by
      intro hnone
      rw [hnone key hkey] at hvalue
      cases hvalue
    simp only [hnot, and_false, iff_false]
    cases helements : value.elements with
    | error error =>
      rintro ⟨limit, hlimit⟩
      cases limit with
      | zero => cases hlimit
      | succ limit =>
        rw [gather, readPage_of_answersWith h le_rfl, hdetect] at hlimit
        simp only [bind, Except.bind, helements] at hlimit
        cases hlimit
    | ok rows =>
      have hsame := @returns_same_iff forgeGet params resultKey pageSize rows [.obj fields]
        fun number hnumber ↦ by
          rw [readPage_of_answersWith h hnumber, hdetect]
          simp only [bind, Except.bind, helements]
          rfl
      rw [hsame]
      intro hresult
      apply notMem_elements hvalue helements
      rw [← hresult.2]
      exact List.mem_singleton_self _
  · have hsame := @returns_same_iff forgeGet params resultKey pageSize
      (if fields.isEmpty then [] else [.obj fields]) [.obj fields] fun number hnumber ↦ by
        rw [readPage_of_answersWith h hnumber, hdetect]
        rfl
    rw [hsame, effectivePageSize]
    by_cases hempty : fields = []
    · simp [hempty]
    · simp only [List.isEmpty_iff, hempty, if_false, List.length_singleton, ne_eq,
        not_false_eq_true, true_and, and_true]
      rw [and_iff_left hnone]
      omega

/-! ## What `forge_get_all` returns -/

/-- Some number of rounds is enough, and these are the items it returns. -/
def ReturnsItems (forgeGet : OrderedMap String String → Except PyError Json)
    (params : Option (OrderedMap String String)) (resultKey : Option String) (pageSize : ℤ)
    (items : List Json) : Prop :=
  ∃ limit, forgeGetAll forgeGet params resultKey pageSize limit = .complete items

/-- Of a server which answers with blocks, the whole collection is returned. A single object is returned
once exactly when pages of more than one item are asked for and nothing in it looks like a listing. -/
theorem forgeGetAll_returns (forgeGet : OrderedMap String String → Except PyError Json)
    (params : Option (OrderedMap String String)) (resultKey : Option String) {pageSize : ℤ}
    (hpage : 1 ≤ pageSize) :
    (∀ collection,
        (Serves forgeGet (params.getD .empty) (effectivePageSize pageSize) fun number response ↦
          Carries resultKey (block collection (effectivePageSize pageSize).toNat number) response) →
        ReturnsItems forgeGet params resultKey pageSize collection) ∧
      ∀ fields, AnswersWith forgeGet (params.getD .empty) (effectivePageSize pageSize) fields →
        (ReturnsItems forgeGet params resultKey pageSize [.obj fields] ↔
          2 ≤ pageSize ∧ fields ≠ [] ∧ ∀ key ∈ lookedFor resultKey, fields.lookup key = none) := by
  refine ⟨fun collection h ↦ ?_, fun fields h ↦ returns_object_iff h⟩
  have hpos : 0 < effectivePageSize pageSize := by
    unfold effectivePageSize
    omega
  have ⟨pages, hchain, hpages⟩ := exists_chain (by omega) (Int.toNat_of_nonneg (Int.le_of_lt hpos)).symm h le_rfl
  rw [Nat.sub_self, Nat.zero_mul, List.drop_zero] at hpages
  rw [← hpages]
  exact returns_chain hchain

/-- The number a text of digits denotes. -/
def readNumber (text : String) : ℕ := Nat.ofDigitChars 10 text.toList 0

theorem readNumber_repr (n : ℕ) : readNumber n.repr = n := by
  rw [readNumber, Nat.toList_repr]
  exact Nat.ofDigitChars_toDigits (by decide) (by decide)

/-- A server of a collection which reads the size and the number of a page from the query. -/
def listServer (collection : List Json) (query : OrderedMap String String) : Except PyError Json :=
  match query.get? "pageSize", query.get? "pageNumber" with
  | some size, some number =>
    .ok (.arr (block collection (readNumber size) (readNumber number)))
  | _, _ => .error (.valueError "no such page")

/-- An endpoint of a single object. -/
def objectServer (_ : OrderedMap String String) : Except PyError Json :=
  .ok (.obj [("id", .str "tenant")])

/-- A collection of twice the page size, and an object which is asked for by pages of two. -/
theorem forgeGetAll_returns_two :
    ReturnsItems (listServer [.int 1, .int 2, .int 3, .int 4]) none none 2
        [.int 1, .int 2, .int 3, .int 4] ∧
      ReturnsItems objectServer none none 2 [.obj [("id", .str "tenant")]] := by
  constructor
  · apply (forgeGetAll_returns _ none none (by decide : (1 : ℤ) ≤ 2)).1
    intro query number _ hsize hnumber _
    refine ⟨_, ?_, .bare⟩
    have htwo : readNumber (toString (effectivePageSize 2)) = 2 := readNumber_repr 2
    have hat : readNumber (toString number) = number := readNumber_repr number
    rw [listServer, hsize, hnumber]
    simp only [htwo, hat]
    rfl
  · rw [(forgeGetAll_returns objectServer none none (by decide : (1 : ℤ) ≤ 2)).2 _
      fun _ _ _ _ _ _ ↦ ⟨_, rfl, rfl⟩]
    decide

/-- By pages of one item, a single object is asked for again and again. -/
theorem single_object_never_returned :
    AnswersWith objectServer .empty (effectivePageSize 1) [("id", .str "tenant")] ∧
      ∀ limit, ∃ items, forgeGetAll objectServer none none 1 limit = .unfinished items := by
  refine ⟨fun _ _ _ _ _ _ ↦ ⟨_, rfl, rfl⟩, fun limit ↦ ?_⟩
  apply gather_endless (I := fun _ ↦ True) _ trivial
  intro number _
  exact ⟨[.obj [("id", .str "tenant")]], number + 1, rfl, trivial⟩

end IsvValidation.Nico
