import Mathlib.Data.Bool.AllAny
import Mathlib.Data.List.Sort
import Mathlib.Data.String.Basic
import IsvValidation.Library.Labels

/-!
# JSON texts

The compact text of a JSON value, in which some characters are kept and all others escaped. The text
determines the value: what is escaped can be read back, and what follows a value starts with a character
which is no part of it. The keys of the records may be put in order first; the text then determines the
value up to that order.
-/

namespace IsvValidation.Library

/-- A JSON value without fractions. -/
inductive Plain where
  | null
  | int (value : ℤ)
  | text (value : String)
  | list (items : List Plain)
  | record (fields : List (String × Plain))

namespace JsonText

variable {keep : Char → Bool}

/-! ## Characters -/

/-- The letter after the backslash, for the characters which have one. -/
def letterOf : Char → Option Char
  | '"' => some '"'
  | '\\' => some '\\'
  | '\n' => some 'n'
  | '\r' => some 'r'
  | '\t' => some 't'
  | '\x0c' => some 'f'
  | '\x08' => some 'b'
  | _ => none

/-- The character of a letter after the backslash. -/
def ofLetter : Char → Option Char
  | '"' => some '"'
  | '\\' => some '\\'
  | 'n' => some '\n'
  | 'r' => some '\r'
  | 't' => some '\t'
  | 'f' => some '\x0c'
  | 'b' => some '\x08'
  | _ => none

/-- The escape of a UTF-16 unit. -/
def unitText (unit : ℕ) : List Char :=
  ['\\', 'u', (unit / 4096).digitChar, (unit / 256 % 16).digitChar, (unit / 16 % 16).digitChar,
    (unit % 16).digitChar]

/-- A character in a text; those beyond the basic plane are escaped as a surrogate pair. -/
def escape (keep : Char → Bool) (c : Char) : List Char :=
  match letterOf c with
  | some letter => ['\\', letter]
  | none =>
    if keep c then [c]
    else if c.toNat < 0x10000 then unitText c.toNat
    else unitText (0xD800 + (c.toNat - 0x10000) / 0x400) ++
      unitText (0xDC00 + (c.toNat - 0x10000) % 0x400)

/-- The value of a hexadecimal digit. -/
def hexValue (c : Char) : ℕ := if c.toNat ≤ 57 then c.toNat - 48 else c.toNat - 87

def readUnit : List Char → Option (ℕ × List Char)
  | '\\' :: 'u' :: a :: b :: c :: d :: rest =>
    some (4096 * hexValue a + 256 * hexValue b + 16 * hexValue c + hexValue d, rest)
  | _ => none

/-- Read a character of a text back; a quotation mark ends the text. -/
def readChar : List Char → Option (Char × List Char)
  | [] => none
  | '"' :: _ => none
  | '\\' :: letter :: rest =>
    match ofLetter letter with
    | some c => some (c, rest)
    | none => do
      let (unit, rest) ← readUnit ('\\' :: letter :: rest)
      if 0xD800 ≤ unit ∧ unit < 0xDC00 then
        let (low, rest) ← readUnit rest
        return (Char.ofNat (0x10000 + (unit - 0xD800) * 0x400 + (low - 0xDC00)), rest)
      else return (Char.ofNat unit, rest)
  | c :: rest => some (c, rest)

theorem ofLetter_letterOf {c letter : Char} (h : letterOf c = some letter) : ofLetter letter = some c := by
  unfold letterOf at h
  split at h <;> cases h <;> rfl

theorem hexValue_digitChar {digit : ℕ} (h : digit < 16) : hexValue digit.digitChar = digit := by
  revert h
  revert digit
  decide

theorem readUnit_unitText {unit : ℕ} (h : unit < 0x10000) (rest : List Char) :
    readUnit (unitText unit ++ rest) = some (unit, rest) := by
  change some (_, rest) = _
  rw [hexValue_digitChar (by omega), hexValue_digitChar (by omega), hexValue_digitChar (by omega),
    hexValue_digitChar (by omega)]
  congr 2
  omega

theorem readChar_letter {c letter : Char} (h : letterOf c = some letter) (rest : List Char) :
    readChar ('\\' :: letter :: rest) = some (c, rest) := by
  rw [readChar, ofLetter_letterOf h]

theorem readChar_plain {c : Char} (hquote : c ≠ '"') (hslash : c ≠ '\\') (rest : List Char) :
    readChar (c :: rest) = some (c, rest) := by
  unfold readChar
  split
  · contradiction
  · next heq => exact absurd (List.cons.inj heq).1 hquote
  · next heq => exact absurd (List.cons.inj heq).1 hslash
  · next heq => rw [(List.cons.inj heq).1, (List.cons.inj heq).2]

/-- A unit is read back, and the one after it when it is the first of a pair. -/
theorem readChar_unit {unit : ℕ} (h : unit < 0x10000) (rest : List Char) :
    readChar (unitText unit ++ rest) =
      if 0xD800 ≤ unit ∧ unit < 0xDC00 then
        (readUnit rest).map fun (low, rest) ↦
          (Char.ofNat (0x10000 + (unit - 0xD800) * 0x400 + (low - 0xDC00)), rest)
      else some (Char.ofNat unit, rest) := by
  have hread := readUnit_unitText h rest
  change (do
    let (unit, rest) ← readUnit (unitText unit ++ rest)
    if 0xD800 ≤ unit ∧ unit < 0xDC00 then
      let (low, rest) ← readUnit rest
      return (Char.ofNat (0x10000 + (unit - 0xD800) * 0x400 + (low - 0xDC00)), rest)
    else return (Char.ofNat unit, rest)) = _
  rw [hread]
  by_cases hpair : 0xD800 ≤ unit ∧ unit < 0xDC00
  · rw [if_pos hpair]
    change (if 0xD800 ≤ unit ∧ unit < 0xDC00 then _ else _) = _
    rw [if_pos hpair]
    cases readUnit rest <;> rfl
  · rw [if_neg hpair]
    change (if 0xD800 ≤ unit ∧ unit < 0xDC00 then _ else _) = _
    rw [if_neg hpair]
    rfl

theorem readChar_escape (c : Char) (rest : List Char) :
    readChar (escape keep c ++ rest) = some (c, rest) := by
  unfold escape
  match hletter : letterOf c with
  | some letter => exact readChar_letter hletter rest
  | none =>
    have hquote : c ≠ '"' := fun heq ↦ by
      rw [heq] at hletter
      cases hletter
    have hslash : c ≠ '\\' := fun heq ↦ by
      rw [heq] at hletter
      cases hletter
    have hvalid : c.toNat < 0xD800 ∨ 0xDFFF < c.toNat ∧ c.toNat < 0x110000 := c.valid
    dsimp only
    by_cases hkeep : keep c = true
    · rw [if_pos hkeep]
      exact readChar_plain hquote hslash rest
    · rw [if_neg hkeep]
      by_cases hplane : c.toNat < 0x10000
      · rw [if_pos hplane, readChar_unit hplane, if_neg (by omega), Char.ofNat_toNat]
      · rw [if_neg hplane, List.append_assoc, readChar_unit (by omega), if_pos (by omega),
          readUnit_unitText (by omega)]
        have hvalue : 0x10000 + (0xD800 + (c.toNat - 0x10000) / 0x400 - 0xD800) * 0x400 +
            (0xDC00 + (c.toNat - 0x10000) % 0x400 - 0xDC00) = c.toNat := by omega
        rw [Option.map_some]
        dsimp only
        rw [hvalue, Char.ofNat_toNat]

/-! ## Values -/

/-- The text in quotation marks. -/
def quote (keep : Char → Bool) (text : String) : List Char :=
  '"' :: (text.toList.flatMap (escape keep) ++ ['"'])

def digits : ℤ → List Char
  | .ofNat n => Nat.toDigits 10 n
  | .negSucc n => '-' :: Nat.toDigits 10 (n + 1)

mutual

/-- The compact text of a value. -/
def encode (keep : Char → Bool) : Plain → List Char
  | .null => ['n', 'u', 'l', 'l']
  | .int value => digits value
  | .text value => quote keep value
  | .list items => '[' :: encodeItems keep true items
  | .record fields => '\x7b' :: encodeFields keep true fields

/-- The items of a list with its end; a comma stands before each item but the first. -/
def encodeItems (keep : Char → Bool) (first : Bool) : List Plain → List Char
  | [] => [']']
  | item :: rest => (if first then [] else [',']) ++ (encode keep item ++ encodeItems keep false rest)

/-- The fields of a record with its end. -/
def encodeFields (keep : Char → Bool) (first : Bool) : List (String × Plain) → List Char
  | [] => ['\x7d']
  | (key, value) :: rest => (if first then [] else [',']) ++
      (quote keep key ++ ':' :: (encode keep value ++ encodeFields keep false rest))

end

/-- What may come after a value: nothing, a comma, or the end of a list or a record. -/
def Stops (rest : List Char) : Prop := ∀ c ∈ rest.head?, c ∈ [',', ']', '\x7d']

theorem flatMap_escape_inj {one other rest rest' : List Char}
    (h : one.flatMap (escape keep) ++ '"' :: rest = other.flatMap (escape keep) ++ '"' :: rest') :
    one = other ∧ rest = rest' := by
  induction one generalizing other with
  | nil =>
    match other with
    | [] => exact ⟨rfl, (List.cons.inj h).2⟩
    | d :: others =>
      have hread := congrArg readChar h
      rw [List.flatMap_cons, List.append_assoc, readChar_escape] at hread
      cases hread
  | cons c more ih =>
    have hread := congrArg readChar h
    match other with
    | [] =>
      rw [List.flatMap_cons, List.append_assoc, readChar_escape] at hread
      cases hread
    | d :: others =>
      rw [List.flatMap_cons, List.flatMap_cons, List.append_assoc, List.append_assoc, readChar_escape,
        readChar_escape] at hread
      have ⟨hchar, hrest⟩ := Prod.mk.inj (Option.some.inj hread)
      have ⟨hmore, hend⟩ := ih hrest
      exact ⟨by rw [hchar, hmore], hend⟩

theorem quote_inj {one other : String} {rest rest' : List Char}
    (h : quote keep one ++ rest = quote keep other ++ rest') : one = other ∧ rest = rest' := by
  rw [quote, quote, List.cons_append, List.cons_append, List.append_assoc, List.append_assoc] at h
  have ⟨hlist, hrest⟩ := flatMap_escape_inj (List.cons.inj h).2
  exact ⟨String.toList_inj.mp hlist, hrest⟩

/-- The characters of a number. -/
def inNumber (c : Char) : Bool := c.isDigit || c == '-'

theorem inNumber_digits {value : ℤ} {c : Char} (h : c ∈ digits value) : inNumber c = true := by
  have hdigit : ∀ {n : ℕ}, c ∈ Nat.toDigits 10 n → inNumber c = true := fun hmem ↦ by
    rw [inNumber, Nat.isDigit_of_mem_toDigits (by decide) (by decide) hmem, Bool.true_or]
  match value, h with
  | .ofNat n, h => exact hdigit h
  | .negSucc n, h =>
    match List.mem_cons.mp h with
    | .inl heq =>
      rw [heq]
      decide
    | .inr hmem => exact hdigit hmem

theorem digits_injective {one other : ℤ} (h : digits one = digits other) : one = other := by
  have hminus : ∀ {m n : ℕ}, Nat.toDigits 10 m ≠ '-' :: Nat.toDigits 10 n := fun heq ↦
    notMem_toDigits (by decide) _ (heq ▸ List.mem_cons_self)
  match one, other, h with
  | .ofNat m, .ofNat n, h => rw [toDigits_injective h]
  | .negSucc m, .negSucc n, h =>
    have hsucc := toDigits_injective (List.cons.inj h).2
    rw [Nat.succ_injective hsucc]
  | .ofNat m, .negSucc n, h => exact absurd h hminus
  | .negSucc m, .ofNat n, h => exact absurd h.symm hminus

/-- What is taken of a list while a property holds does not depend on how the list is cut. -/
theorem span_inj {p : Char → Bool} {one other rest rest' : List Char} (hone : ∀ c ∈ one, p c = true)
    (hother : ∀ c ∈ other, p c = true) (hrest : ∀ c ∈ rest.head?, p c = false)
    (hrest' : ∀ c ∈ rest'.head?, p c = false) (h : one ++ rest = other ++ rest') :
    one = other ∧ rest = rest' := by
  induction one generalizing other with
  | nil =>
    match other with
    | [] => exact ⟨rfl, h⟩
    | d :: others =>
      have hend := hrest d (by rw [show rest = d :: (others ++ rest') from h, List.head?_cons]; rfl)
      rw [hother d List.mem_cons_self] at hend
      cases hend
  | cons c more ih =>
    match other with
    | [] =>
      have hend := hrest' c (by rw [← show c :: (more ++ rest) = rest' from h, List.head?_cons]; rfl)
      rw [hone c List.mem_cons_self] at hend
      cases hend
    | d :: others =>
      have ⟨hchar, htail⟩ := List.cons.inj h
      have ⟨hmore, hend⟩ := ih (fun c hmem ↦ hone c (List.mem_cons_of_mem _ hmem))
        (fun c hmem ↦ hother c (List.mem_cons_of_mem _ hmem)) htail
      exact ⟨by rw [hchar, hmore], hend⟩

theorem Stops.head {rest : List Char} (h : Stops rest) : ∀ c ∈ rest.head?, inNumber c = false := by
  have hall : ∀ c ∈ [',', ']', '\x7d'], inNumber c = false := List.all_iff_forall_prop.mp (by decide)
  exact fun c hc ↦ hall c (h c hc)

theorem digits_inj {one other : ℤ} {rest rest' : List Char} (hrest : Stops rest) (hrest' : Stops rest')
    (h : digits one ++ rest = digits other ++ rest') : one = other ∧ rest = rest' := by
  have ⟨hdigits, hend⟩ := span_inj (fun _ ↦ inNumber_digits) (fun _ ↦ inNumber_digits) hrest.head
    hrest'.head h
  exact ⟨digits_injective hdigits, hend⟩

/-! ## The text determines the value -/

/-- The kinds of values, by the first character of a text. -/
def kindOf (c : Char) : ℕ :=
  if c = 'n' then 0 else if c = '"' then 2 else if c = '[' then 3 else if c = '\x7b' then 4
  else if inNumber c then 1 else 5

def kind : Plain → ℕ
  | .null => 0
  | .int _ => 1
  | .text _ => 2
  | .list _ => 3
  | .record _ => 4

theorem kindOf_inNumber {c : Char} (h : inNumber c = true) : kindOf c = 1 := by
  have hother : ∀ d ∈ ['n', '"', '[', '\x7b'], inNumber d = false :=
    List.all_iff_forall_prop.mp (by decide)
  have hne : ∀ d ∈ ['n', '"', '[', '\x7b'], c ≠ d := fun d hd heq ↦ by
    rw [heq, hother d hd] at h
    cases h
  rw [kindOf, if_neg (hne 'n' (by decide)), if_neg (hne '"' (by decide)), if_neg (hne '[' (by decide)),
    if_neg (hne '\x7b' (by decide)), if_pos h]

theorem digits_ne_nil (value : ℤ) : digits value ≠ [] := by
  match value with
  | .ofNat n => exact Nat.toDigits_ne_nil
  | .negSucc n => exact List.cons_ne_nil _ _

theorem encode_head (value : Plain) :
    ∃ c rest, encode keep value = c :: rest ∧ kindOf c = kind value := by
  match value with
  | .null => exact ⟨'n', _, by rw [encode], rfl⟩
  | .text text => exact ⟨'"', _, by rw [encode, quote], rfl⟩
  | .list items => exact ⟨'[', _, by rw [encode], rfl⟩
  | .record fields => exact ⟨'\x7b', _, by rw [encode], rfl⟩
  | .int value =>
    rw [encode]
    match hdigits : digits value with
    | [] => exact absurd hdigits (digits_ne_nil value)
    | c :: rest => exact ⟨c, rest, rfl, kindOf_inNumber (inNumber_digits (hdigits ▸ List.mem_cons_self))⟩

theorem kind_eq {one other : Plain} {rest rest' : List Char}
    (h : encode keep one ++ rest = encode keep other ++ rest') : kind one = kind other := by
  have ⟨c, more, hone, hc⟩ := @encode_head keep one
  have ⟨d, others, hother, hd⟩ := @encode_head keep other
  rw [hone, hother] at h
  rw [← hc, ← hd, (List.cons.inj h).1]

theorem stops_nil : Stops [] := by
  intro c hc
  cases hc

theorem stops_cons {c : Char} (h : c ∈ [',', ']', '\x7d']) (rest : List Char) : Stops (c :: rest) :=
  fun _ hd ↦ Option.some.inj hd ▸ h

theorem stops_encodeItems (items : List Plain) (rest : List Char) :
    Stops (encodeItems keep false items ++ rest) := by
  match items with
  | [] =>
    rw [encodeItems]
    exact stops_cons (by decide) _
  | item :: others =>
    rw [encodeItems]
    exact stops_cons (by decide) _

theorem stops_encodeFields (fields : List (String × Plain)) (rest : List Char) :
    Stops (encodeFields keep false fields ++ rest) := by
  match fields with
  | [] =>
    rw [encodeFields]
    exact stops_cons (by decide) _
  | (key, value) :: others =>
    rw [encodeFields]
    exact stops_cons (by decide) _

/-- A list which goes on does not look like one which ends. -/
theorem encodeItems_cons_ne {first : Bool} {item : Plain} {items : List Plain} {rest rest' : List Char} :
    encodeItems keep first (item :: items) ++ rest ≠ encodeItems keep first [] ++ rest' := by
  intro h
  have ⟨c, more, hitem, hkind⟩ := @encode_head keep item
  rw [encodeItems, encodeItems, hitem] at h
  match first with
  | true =>
    rw [(List.cons.inj h).1] at hkind
    cases item <;> cases hkind
  | false => exact absurd (List.cons.inj h).1 (by decide)

theorem encodeFields_cons_ne {first : Bool} {field : String × Plain} {fields : List (String × Plain)}
    {rest rest' : List Char} :
    encodeFields keep first (field :: fields) ++ rest ≠ encodeFields keep first [] ++ rest' := by
  intro h
  match first, field with
  | true, (key, value) =>
    rw [encodeFields, encodeFields, quote] at h
    exact absurd (List.cons.inj h).1 (by decide)
  | false, (key, value) =>
    rw [encodeFields, encodeFields] at h
    exact absurd (List.cons.inj h).1 (by decide)

mutual

theorem encode_inj (keep : Char → Bool) (one other : Plain) {rest rest' : List Char}
    (hrest : Stops rest) (hrest' : Stops rest') (h : encode keep one ++ rest = encode keep other ++ rest') :
    one = other ∧ rest = rest' := by
  have hkind := kind_eq h
  match one, other, hkind with
  | .null, .null, _ => exact ⟨rfl, List.append_cancel_left h⟩
  | .int m, .int n, _ =>
    rw [encode, encode] at h
    have ⟨hvalue, hend⟩ := digits_inj hrest hrest' h
    exact ⟨by rw [hvalue], hend⟩
  | .text a, .text b, _ =>
    rw [encode, encode] at h
    have ⟨hvalue, hend⟩ := quote_inj h
    exact ⟨by rw [hvalue], hend⟩
  | .list items, .list others, _ =>
    rw [encode, encode] at h
    have ⟨hitems, hend⟩ := encodeItems_inj keep true items others (List.cons.inj h).2
    exact ⟨by rw [hitems], hend⟩
  | .record fields, .record others, _ =>
    rw [encode, encode] at h
    have ⟨hfields, hend⟩ := encodeFields_inj keep true fields others (List.cons.inj h).2
    exact ⟨by rw [hfields], hend⟩

theorem encodeItems_inj (keep : Char → Bool) (first : Bool) (one other : List Plain)
    {rest rest' : List Char}
    (h : encodeItems keep first one ++ rest = encodeItems keep first other ++ rest') :
    one = other ∧ rest = rest' := by
  match one, other with
  | [], [] => exact ⟨rfl, List.append_cancel_left h⟩
  | [], item :: items => exact absurd h.symm encodeItems_cons_ne
  | item :: items, [] => exact absurd h encodeItems_cons_ne
  | item :: items, item' :: items' =>
    rw [encodeItems, encodeItems] at h
    simp only [List.append_assoc] at h
    have ⟨hitem, hmore⟩ := encode_inj keep item item' (stops_encodeItems _ _) (stops_encodeItems _ _)
      (List.append_cancel_left h)
    have ⟨hitems, hend⟩ := encodeItems_inj keep false items items' hmore
    exact ⟨by rw [hitem, hitems], hend⟩

theorem encodeFields_inj (keep : Char → Bool) (first : Bool) (one other : List (String × Plain))
    {rest rest' : List Char}
    (h : encodeFields keep first one ++ rest = encodeFields keep first other ++ rest') :
    one = other ∧ rest = rest' := by
  match one, other with
  | [], [] => exact ⟨rfl, List.append_cancel_left h⟩
  | [], field :: fields => exact absurd h.symm encodeFields_cons_ne
  | field :: fields, [] => exact absurd h encodeFields_cons_ne
  | (key, value) :: fields, (key', value') :: fields' =>
    rw [encodeFields, encodeFields] at h
    simp only [List.append_assoc, List.cons_append] at h
    have ⟨hkey, hcolon⟩ := quote_inj (List.append_cancel_left h)
    have ⟨hvalue, hmore⟩ := encode_inj keep value value' (stops_encodeFields _ _) (stops_encodeFields _ _)
      (List.cons.inj hcolon).2
    have ⟨hfields, hend⟩ := encodeFields_inj keep false fields fields' hmore
    exact ⟨by rw [hkey, hvalue, hfields], hend⟩

end

/-! ## Keys in order -/

mutual

/-- The value with the keys of all records in order. -/
def sortKeys : Plain → Plain
  | .list items => .list (sortItems items)
  | .record fields => .record ((sortFields fields).insertionSort fun one other ↦ one.1 ≤ other.1)
  | .null => .null
  | .int value => .int value
  | .text value => .text value

def sortItems : List Plain → List Plain
  | [] => []
  | item :: rest => sortKeys item :: sortItems rest

def sortFields : List (String × Plain) → List (String × Plain)
  | [] => []
  | (key, value) :: rest => (key, sortKeys value) :: sortFields rest

end

/-- The compact text of a value with the keys in order. -/
def dumps (keep : Char → Bool) (value : Plain) : String := .ofList (encode keep (sortKeys value))

theorem dumps_inj {one other : Plain} (h : dumps keep one = dumps keep other) :
    sortKeys one = sortKeys other := by
  have hlist := congrArg String.toList h
  rw [dumps, dumps, String.toList_ofList, String.toList_ofList] at hlist
  have hend := congrArg (· ++ ([] : List Char)) hlist
  exact (encode_inj keep _ _ stops_nil stops_nil hend).1

theorem sortItems_eq (items : List Plain) : sortItems items = items.map sortKeys := by
  induction items with
  | nil => rfl
  | cons item rest ih => rw [sortItems, ih, List.map_cons]

theorem sortFields_eq (fields : List (String × Plain)) :
    sortFields fields = fields.map fun field ↦ (field.1, sortKeys field.2) := by
  induction fields with
  | nil => rfl
  | cons field rest ih => rw [sortFields, ih, List.map_cons]

/-- Fields with the same distinct keys in the same order are the same when they are the same in some
order. -/
theorem eq_of_perm_of_keys {β : Type} {one other : List (String × β)} (hperm : one.Perm other)
    (hkeys : one.map Prod.fst = other.map Prod.fst) (hnodup : (one.map Prod.fst).Nodup) : one = other := by
  induction one generalizing other with
  | nil => exact hperm.nil_eq
  | cons field rest ih =>
    match other, hkeys with
    | field' :: rest', hkeys =>
      have ⟨hkey, hrest⟩ := List.cons.inj hkeys
      have ⟨hnot, hnodup⟩ := List.nodup_cons.mp hnodup
      have hfield : field = field' := by
        match List.mem_cons.mp (hperm.mem_iff.mp List.mem_cons_self) with
        | .inl heq => exact heq
        | .inr hmem => exact absurd (hrest ▸ List.mem_map_of_mem hmem) hnot
      rw [hfield] at hperm ⊢
      rw [ih hperm.cons_inv hrest hnodup]

/-- Records with the same distinct keys in the same order have the same values up to the order of keys. -/
theorem sortFields_inj {one other : List (String × Plain)}
    (hkeys : one.map Prod.fst = other.map Prod.fst) (hnodup : (one.map Prod.fst).Nodup)
    (h : sortKeys (.record one) = sortKeys (.record other)) : sortFields one = sortFields other := by
  rw [sortKeys, sortKeys] at h
  have hperm := (List.perm_insertionSort _ (sortFields one)).symm.trans
    (Plain.record.inj h ▸ List.perm_insertionSort _ (sortFields other))
  have hsame : ∀ fields, (sortFields fields).map Prod.fst = fields.map Prod.fst := fun fields ↦ by
    rw [sortFields_eq, List.map_map]
    rfl
  exact eq_of_perm_of_keys hperm (by rw [hsame, hsame, hkeys]) (by rwa [hsame])

end JsonText

end IsvValidation.Library
