import Mathlib.Data.Finset.Sort
import IsvValidation.Library.Arrange
import IsvValidation.Library.JsonText

/-!
# The digest of a catalog

The digest is taken of the public contract of a catalog: of the version of its schema, the capabilities, the
suites, and what an entry publishes. Lists which are sets are written in order and once, and the entries in
the order of their own texts, so that the order in which the checks were found plays no part. The payload
then says what the contract is, and nothing else.
-/

namespace IsvValidation.Catalog

open Library JsonText

/-- What a dictionary has under a key. -/
inductive Field (α : Type) where
  | absent
  | null
  | value (a : α)

variable {α : Type}

/-- The lookup with a default; a null is found as it stands. -/
def Field.get (default : Option α) : Field α → Option α
  | .absent => default
  | .null => none
  | .value a => some a

/-- The list, or the empty one where none is found. -/
def Field.orEmpty (field : Field (List α)) : List α := (field.get none).getD []

structure CatalogEntry where
  name : Field String := .absent
  description : Field String := .absent
  labels : Field (List String) := .absent
  capability : Field String := .absent
  suite : Field String := .absent
  requires : Field (List String) := .absent
  testIds : Field (List String) := .absent
  /-- The other fields, such as the source of the check. -/
  others : List (String × Plain) := []

structure CatalogDocument where
  schemaVersion : Field ℤ := .absent
  capabilities : Field (List String) := .absent
  suites : Field (List String) := .absent
  entries : Option (List CatalogEntry) := none
  /-- The other fields, such as the version and the reference of the build. -/
  others : List (String × Plain) := []

def catalogSchemaVersion : ℤ := 2

/-! ## Encoding -/

/-- The characters which the encoder keeps in ASCII texts. -/
def keepsAscii (c : Char) : Bool := ' ' ≤ c && c ≤ '~'

/-- The characters which it keeps otherwise: all but the control characters. -/
def keepsUnicode (c : Char) : Bool := ' ' ≤ c

def plainText : Option String → Plain
  | none => .null
  | some text => .text text

def plainVersion : Option ℤ → Plain
  | none => .null
  | some version => .int version

/-- The members of a set in order. -/
def sortedSet (members : Finset String) : Plain := .list (members.sort.map .text)

def canonicalEntry (entry : CatalogEntry) : Plain :=
  .record
    [("name", plainText (entry.name.get (some ""))),
      ("description", plainText (entry.description.get (some ""))),
      ("labels", sortedSet entry.labels.orEmpty.toFinset),
      ("capability", plainText (entry.capability.get none)),
      ("suite", plainText (entry.suite.get (some ""))),
      ("requires", sortedSet entry.requires.orEmpty.toFinset),
      ("test_ids", sortedSet entry.testIds.orEmpty.toFinset)]

/-- Whether an entry stands before another in the order of their texts. -/
def ByText (one other : Plain) : Prop := dumps keepsAscii one ≤ dumps keepsAscii other

instance : DecidableRel ByText := fun one other ↦
  inferInstanceAs (Decidable (dumps keepsAscii one ≤ dumps keepsAscii other))

def canonicalEntries (document : CatalogDocument) : List Plain :=
  ((document.entries.getD []).map canonicalEntry).insertionSort ByText

def catalogContract (document : CatalogDocument) : Plain :=
  .record
    [("schemaVersion", plainVersion (document.schemaVersion.get (some catalogSchemaVersion))),
      ("capabilities", sortedSet document.capabilities.orEmpty.toFinset),
      ("suites", sortedSet document.suites.orEmpty.toFinset),
      ("entries", .list (canonicalEntries document))]

/-- What is hashed. -/
def catalogPayload (document : CatalogDocument) : ByteArray :=
  (dumps keepsUnicode (catalogContract document)).toUTF8

def catalogDigest (sha256 : ByteArray → String) (document : CatalogDocument) : String :=
  "sha256:" ++ sha256 (catalogPayload document)

/-! ## Contracts -/

/-- What an entry publishes; `none` is a null. -/
@[ext] structure EntryContract where
  name : Option String
  description : Option String
  labels : Finset String
  capability : Option String
  suite : Option String
  requires : Finset String
  testIds : Finset String
  deriving DecidableEq

/-- What a catalog publishes. -/
@[ext] structure Contract where
  schemaVersion : Option ℤ
  capabilities : Finset String
  suites : Finset String
  entries : Multiset EntryContract
  deriving DecidableEq

/-- The contract of an entry, where it is said for what an absent capability counts. -/
def CatalogEntry.contract (unplaced : Option String) (entry : CatalogEntry) : EntryContract where
  name := entry.name.get (some "")
  description := entry.description.get (some "")
  labels := entry.labels.orEmpty.toFinset
  capability := entry.capability.get unplaced
  suite := entry.suite.get (some "")
  requires := entry.requires.orEmpty.toFinset
  testIds := entry.testIds.orEmpty.toFinset

def CatalogDocument.contract (unplaced : Option String) (document : CatalogDocument) : Contract where
  schemaVersion := document.schemaVersion.get (some catalogSchemaVersion)
  capabilities := document.capabilities.orEmpty.toFinset
  suites := document.suites.orEmpty.toFinset
  entries := ((document.entries.getD []).map (CatalogEntry.contract unplaced) : List EntryContract)

/-- The value which is written for the contract of an entry. -/
def EntryContract.plain (entry : EntryContract) : Plain :=
  .record
    [("name", plainText entry.name),
      ("description", plainText entry.description),
      ("labels", sortedSet entry.labels),
      ("capability", plainText entry.capability),
      ("suite", plainText entry.suite),
      ("requires", sortedSet entry.requires),
      ("test_ids", sortedSet entry.testIds)]

/-- An entry is written as its contract says, with the null for an absent capability. -/
theorem canonicalEntry_eq (entry : CatalogEntry) :
    canonicalEntry entry = (entry.contract none).plain := rfl

/-! ## What is written determines what is meant -/

theorem plainText_injective : Function.Injective plainText := by
  intro one other h
  match one, other, h with
  | none, none, _ => rfl
  | some one, some other, h => rw [Plain.text.inj h]

theorem plainVersion_injective : Function.Injective plainVersion := by
  intro one other h
  match one, other, h with
  | none, none, _ => rfl
  | some one, some other, h => rw [Plain.int.inj h]

theorem sortedSet_injective : Function.Injective sortedSet := by
  intro one other h
  have hsorted := (List.map_injective_iff.mpr fun _ _ ↦ Plain.text.inj) (Plain.list.inj h)
  rw [← Finset.sort_toFinset one (· ≤ ·), hsorted, Finset.sort_toFinset]

@[simp] theorem sortKeys_plainText (text : Option String) : sortKeys (plainText text) = plainText text := by
  cases text <;> rfl

@[simp] theorem sortKeys_plainVersion (version : Option ℤ) :
    sortKeys (plainVersion version) = plainVersion version := by
  cases version <;> rfl

@[simp] theorem sortKeys_sortedSet (members : Finset String) :
    sortKeys (sortedSet members) = sortedSet members := by
  rw [sortedSet, sortKeys, sortItems_eq, List.map_map]
  rfl

/-- The contract of an entry can be read off its value, also when the keys are put in order. -/
theorem EntryContract.plain_injective :
    Function.Injective fun entry : EntryContract ↦ sortKeys entry.plain := by
  intro one other h
  have hrecord : sortKeys (.record _) = sortKeys (.record _) := h
  have hfields := sortFields_inj (by rfl) (by simp) hrecord
  simp only [sortFields, sortKeys_plainText, sortKeys_sortedSet, List.cons.injEq, Prod.mk.injEq, true_and,
    and_true, plainText_injective.eq_iff, sortedSet_injective.eq_iff] at hfields
  obtain ⟨hname, hdescription, hlabels, hcapability, hsuite, hrequires, hids⟩ := hfields
  exact EntryContract.ext hname hdescription hlabels hcapability hsuite hrequires hids

instance : Std.Total ByText := ⟨fun one other ↦ le_total (dumps keepsAscii one) (dumps keepsAscii other)⟩

instance : IsTrans Plain ByText := ⟨fun _ _ _ ↦ le_trans⟩

theorem map_canonicalEntry (document : CatalogDocument) :
    (document.entries.getD []).map canonicalEntry =
      ((document.entries.getD []).map (CatalogEntry.contract none)).map EntryContract.plain := by
  rw [List.map_map]
  rfl

/-- Two entries of which neither stands before the other publish the same. -/
theorem eq_of_byText {one other : EntryContract} (h : ByText one.plain other.plain)
    (h' : ByText other.plain one.plain) : one = other :=
  EntryContract.plain_injective (dumps_inj (le_antisymm h h'))

/-- The order of the entries, and what is not published, play no part in what is written. -/
theorem canonicalEntries_eq {one other : CatalogDocument}
    (h : (one.contract none).entries = (other.contract none).entries) :
    canonicalEntries one = canonicalEntries other := by
  have hperm := (Multiset.coe_eq_coe.mp h).map EntryContract.plain
  rw [← map_canonicalEntry, ← map_canonicalEntry] at hperm
  apply insertionSort_eq_of_perm hperm
  intro a ha b hb hab hba
  have ⟨entry, _, hentry⟩ := List.mem_map.mp ha
  have ⟨entry', _, hentry'⟩ := List.mem_map.mp hb
  rw [← hentry, ← hentry', canonicalEntry_eq, canonicalEntry_eq] at hab hba ⊢
  rw [eq_of_byText hab hba]

/-- The entries which are written determine how often each contract of an entry is among them. -/
theorem entries_eq {one other : CatalogDocument}
    (h : (canonicalEntries one).map sortKeys = (canonicalEntries other).map sortKeys) :
    (one.contract none).entries = (other.contract none).entries := by
  have hwritten : ∀ document : CatalogDocument, ((canonicalEntries document).map sortKeys).Perm
      (((document.entries.getD []).map (CatalogEntry.contract none)).map fun entry ↦
        sortKeys entry.plain) := fun document ↦ by
    have hperm := List.perm_insertionSort ByText ((document.entries.getD []).map canonicalEntry)
    have hkeys := hperm.map sortKeys
    nth_rewrite 2 [map_canonicalEntry] at hkeys
    rwa [List.map_map] at hkeys
  have hsame := (hwritten one).symm.trans (h ▸ hwritten other)
  exact Multiset.coe_eq_coe.mpr ((List.map_perm_map_iff EntryContract.plain_injective).mp hsame)

theorem catalogContract_eq {one other : CatalogDocument} (h : one.contract none = other.contract none) :
    catalogContract one = catalogContract other := by
  have ⟨hversion, hcapabilities, hsuites, hentries⟩ := Contract.mk.inj h
  rw [catalogContract, catalogContract, hversion, hcapabilities, hsuites, canonicalEntries_eq hentries]

theorem contract_eq {one other : CatalogDocument}
    (h : sortKeys (catalogContract one) = sortKeys (catalogContract other)) :
    one.contract none = other.contract none := by
  have hrecord : sortKeys (.record _) = sortKeys (.record _) := h
  have hfields := sortFields_inj (by rfl) (by simp) hrecord
  simp only [sortFields, sortKeys_plainVersion, sortKeys_sortedSet, sortKeys, sortItems_eq, List.cons.injEq,
    Prod.mk.injEq, true_and, and_true, plainVersion_injective.eq_iff, sortedSet_injective.eq_iff,
    Plain.list.injEq] at hfields
  obtain ⟨hversion, hcapabilities, hsuites, hentries⟩ := hfields
  exact Contract.ext hversion hcapabilities hsuites (entries_eq hentries)

theorem contract_eq_of_catalogPayload_eq {one other : CatalogDocument}
    (h : catalogPayload one = catalogPayload other) : one.contract none = other.contract none :=
  contract_eq (dumps_inj (String.toByteArray_inj.mp h))

theorem catalogPayload_eq_of_contract_eq {one other : CatalogDocument}
    (h : one.contract none = other.contract none) : catalogPayload one = catalogPayload other := by
  rw [catalogPayload, catalogPayload, catalogContract_eq h]

/-- The payload identifies the contract of a catalog: neither the order nor the repetition of what is a set,
nor the order of the entries, nor what is not published changes it, and everything else does. -/
theorem catalogPayload_eq_iff (one other : CatalogDocument) :
    catalogPayload one = catalogPayload other ↔ one.contract none = other.contract none :=
  ⟨contract_eq_of_catalogPayload_eq, catalogPayload_eq_of_contract_eq⟩

/-- An absent capability is written as the null and not as the empty text, unlike the other texts. -/
theorem absent_capability_not_empty :
    ¬ ∀ one other : CatalogDocument,
      catalogPayload one = catalogPayload other ↔ one.contract (some "") = other.contract (some "") := by
  intro h
  have hpayload := (h { entries := some [{ }] } { entries := some [{ capability := .value "" }] }).mpr rfl
  exact absurd (contract_eq_of_catalogPayload_eq hpayload) (by decide)

/-! ## Digests -/

variable {sha256 : ByteArray → String} {one other : CatalogDocument}

theorem catalogDigest_eq_of_contract_eq (h : one.contract none = other.contract none) :
    catalogDigest sha256 one = catalogDigest sha256 other := by
  rw [catalogDigest, catalogDigest, catalogPayload_eq_of_contract_eq h]

/-- Two catalogs which publish different contracts under one digest are a collision of the hash. -/
theorem collision_of_catalogDigest_eq (h : catalogDigest sha256 one = catalogDigest sha256 other)
    (hne : one.contract none ≠ other.contract none) :
    catalogPayload one ≠ catalogPayload other ∧
      sha256 (catalogPayload one) = sha256 (catalogPayload other) := by
  have hlist := congrArg String.toList h
  rw [catalogDigest, catalogDigest, String.toList_append, String.toList_append] at hlist
  have hhash := List.append_cancel_left hlist
  exact ⟨fun heq ↦ hne (contract_eq_of_catalogPayload_eq heq), String.toList_inj.mp hhash⟩

end IsvValidation.Catalog
