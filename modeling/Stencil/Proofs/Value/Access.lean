import Stencil.Expression.Evaluation
import Stencil.Proofs.Expression.RoundTrip

/-!
Access by path, in data, in values and in contexts. In data a segment names an item of a list by a
position of 64 bits, which is read digit by digit and is not read at all where it becomes too large
(`Data.position64?`); in a value by a number of any size (`position?`). In a list that 64 bits can
count this makes no difference (`Data.map_toNat_position64?`, `Data.getElem?_position64?`). What a
path leads to in a value is the value of what it leads to in the data (`Value.follow?_ofData`), and
a context of data is followed as the record is that it was made from (`Context.follow?_ofData`). In
the lookups of expressions a segment is a word, so that it names an item by its digits alone
(`Value.isSome_follow?_list_iff`).
-/

set_option autoImplicit false
set_option relaxedAutoImplicit false

namespace Stencil

open Text

namespace Data

/-! ### Positions -/

/-- The position with one more digit behind it, where 64 bits can hold it. -/
def appendDigit? (position : UInt64) (c : Char) : Option UInt64 :=
  if c.isDigit = true ∧ 10 * position.toNat + (c.toNat - '0'.toNat) < UInt64.size then
    some (10 * position + UInt64.ofNat (c.toNat - '0'.toNat))
  else none

/-- The position that a text of digits denotes. -/
def digitsPosition? (digits : List Char) : Option UInt64 :=
  if digits = [] then none else digits.foldlM appendDigit? 0

/-- The text without a plus sign at its front. -/
def withoutPlus (text : List Char) : List Char :=
  if text.head? = some '+' then text.tail else text

/-- The position of 64 bits that a segment denotes: digits, perhaps behind a plus sign. -/
def position64? (segment : String) : Option UInt64 :=
  digitsPosition? (withoutPlus segment.toList)

theorem le_ofDigitChars (digits : List Char) (amount : Nat) :
    amount ≤ Nat.ofDigitChars 10 digits amount := by
  rw [Nat.ofDigitChars_eq_ofDigitChars_zero]
  exact (Nat.le_mul_of_pos_left amount (Nat.pow_pos (by decide))).trans (Nat.le_add_right _ _)

/-- Digits are read without wrapping around: a position that becomes too large stays too large. -/
theorem map_toNat_foldlM_appendDigit? (digits : List Char) (position : UInt64) :
    (digits.foldlM appendDigit? position).map UInt64.toNat =
      if digits.all Char.isDigit = true ∧
          Nat.ofDigitChars 10 digits position.toNat < UInt64.size then
        some (Nat.ofDigitChars 10 digits position.toNat)
      else none := by
  induction digits generalizing position with
  | nil => simp [UInt64.toNat_lt_size]
  | cons c digits ih =>
    rw [List.foldlM_cons, Nat.ofDigitChars_cons, List.all_cons, appendDigit?]
    by_cases hstep : c.isDigit = true ∧
        10 * position.toNat + (c.toNat - '0'.toNat) < UInt64.size
    · have hnext : (10 * position + UInt64.ofNat (c.toNat - '0'.toNat)).toNat =
          10 * position.toNat + (c.toNat - '0'.toNat) := by
        have hten : (10 : UInt64).toNat = 10 := rfl
        have hbound := hstep.2
        rw [UInt64.size] at hbound
        rw [UInt64.toNat_add, UInt64.toNat_mul, UInt64.toNat_ofNat', hten]
        omega
      rw [if_pos hstep, Option.bind_eq_bind, Option.bind_some, ih, hnext, hstep.1, Bool.true_and]
    · rw [if_neg hstep, if_neg]
      · rfl
      · rintro ⟨hdigits, hbound⟩
        refine hstep ⟨(Bool.and_eq_true_iff.1 hdigits).1, ?_⟩
        exact (le_ofDigitChars digits _).trans_lt hbound

/-- A position is the number behind the plus sign, if there is one. -/
theorem natural?_withoutPlus (segment : String) :
    position? segment = natural? (withoutPlus segment.toList) := by
  unfold position? withoutPlus
  split
  · rename_i digits htext
    rw [htext]
    rfl
  · rename_i hplus
    rw [if_neg]
    intro hhead
    obtain ⟨digits, htext⟩ := List.head?_eq_some_iff.1 hhead
    exact hplus digits htext

/-- A position of 64 bits is the number that the segment spells, where that is not too large. -/
theorem map_toNat_position64? (segment : String) :
    (position64? segment).map UInt64.toNat =
      (position? segment).filter (· < UInt64.size) := by
  rw [natural?_withoutPlus, position64?, digitsPosition?, natural?]
  by_cases hnone : withoutPlus segment.toList = []
  · simp [hnone]
  · rw [if_neg hnone, map_toNat_foldlM_appendDigit?]
    by_cases hdigits : (withoutPlus segment.toList).all Char.isDigit = true
    · simp [hnone, hdigits, Option.filter]
    · simp [hdigits]

/-- In a list that 64 bits can count, the item at a position is the same read either way. -/
theorem getElem?_position64? {α : Type} {items : List α} (hlength : items.length ≤ UInt64.size)
    (segment : String) :
    ((position64? segment).bind fun position ↦ items[position.toNat]?) =
      (position? segment).bind fun position ↦ items[position]? := by
  have hread := map_toNat_position64? segment
  have hitem : ((position64? segment).map UInt64.toNat).bind (items[·]?) =
      (position64? segment).bind fun position ↦ items[position.toNat]? := by
    rw [Option.bind_map]
    rfl
  rw [← hitem, hread]
  cases hposition : position? segment with
  | none => rfl
  | some position =>
    by_cases hbound : position < UInt64.size
    · simp [Option.filter, hbound]
    · have hmiss : items[position]? = none :=
        List.getElem?_eq_none (hlength.trans (Nat.not_lt.1 hbound))
      simp [Option.filter, hbound, hmiss]

/-! ### Data -/

/-- Data as it can be held: no two members of a record have one name, and no list has more items
than 64 bits can count. -/
inductive WellFormed : Data → Prop where
  | null : WellFormed .null
  | bool (value : Bool) : WellFormed (.bool value)
  | number (numeral : Numeral) : WellFormed (.number numeral)
  | text (value : String) : WellFormed (.text value)
  | list {items : List Data} (length_le : items.length ≤ UInt64.size)
      (items_wellFormed : ∀ item ∈ items, WellFormed item) : WellFormed (.list items)
  | record {members : List (String × Data)} (nodup : (members.map Prod.fst).Nodup)
      (members_wellFormed : ∀ member ∈ members, WellFormed member.2) : WellFormed (.record members)

/-- The part of the data that one segment leads to. -/
def child? (data : Data) (segment : String) : Option Data :=
  match data with
  | record members => members.lookup segment
  | list items => (position64? segment).bind fun position ↦ items[position.toNat]?
  | _ => none

/-- The part of the data that the path leads to. -/
def follow? (data : Data) (path : List String) : Option Data :=
  path.foldlM child? data

/-- The parts of well formed data are well formed. -/
theorem WellFormed.child {data found : Data} {segment : String} (hdata : data.WellFormed)
    (hfound : data.child? segment = some found) : found.WellFormed := by
  cases hdata with
  | list hlength hitems =>
    obtain ⟨position, -, hitem⟩ := Option.bind_eq_some_iff.1 hfound
    exact hitems found (List.mem_of_getElem? hitem)
  | record hnodup hmembers =>
    obtain ⟨front, rest, rfl, -⟩ := List.lookup_eq_some_iff.1 hfound
    exact hmembers (segment, found) (List.mem_append_right front List.mem_cons_self)
  | _ => cases hfound

end Data

/-! ### Values of data -/

namespace Members

variable {α β : Type}

/-- Where no name comes twice, the members are found that were given. -/
theorem lookup_foldl_insert {pairs : List (String × α)} (hnodup : (pairs.map Prod.fst).Nodup)
    (members : List (String × α)) (key : String) :
    (pairs.foldl (fun members pair ↦ insert pair.1 pair.2 members) members).lookup key =
      (pairs.lookup key).or (members.lookup key) := by
  induction pairs generalizing members with
  | nil => rfl
  | cons pair pairs ih =>
    rw [List.map_cons, List.nodup_cons] at hnodup
    rw [List.foldl_cons, ih hnodup.2, lookup_insert, lookup_cons]
    by_cases hkey : key = pair.1
    · have hnone : pairs.lookup pair.1 = none := by
        refine List.lookup_eq_none_iff.2 fun other hother ↦ bne_iff_ne.2 fun hname ↦ hnodup.1 ?_
        exact hname ▸ List.mem_map_of_mem hother
      simp [hkey, hnone]
    · simp [hkey]

/-- Members that are sorted by their names are found as they were given. -/
theorem lookup_ofPairs {pairs : List (String × α)} (hnodup : (pairs.map Prod.fst).Nodup)
    (key : String) : (ofPairs pairs).lookup key = pairs.lookup key := by
  rw [ofPairs, lookup_foldl_insert hnodup]
  simp

theorem lookup_map (change : α → β) (pairs : List (String × α)) (key : String) :
    (pairs.map fun pair ↦ (pair.1, change pair.2)).lookup key = (pairs.lookup key).map change := by
  induction pairs with
  | nil => rfl
  | cons pair pairs ih =>
    rw [List.map_cons, lookup_cons, lookup_cons, ih]
    split <;> rfl

end Members

namespace Value

theorem ofDataList_eq_map (items : List Data) : ofDataList items = items.map ofData := by
  induction items with
  | nil => rfl
  | cons item items ih => rw [ofDataList, ih, List.map_cons]

theorem ofDataMembers_eq_map (members : List (String × Data)) :
    ofDataMembers members = members.map fun member ↦ (member.1, ofData member.2) := by
  induction members with
  | nil => rfl
  | cons member members ih => rw [ofDataMembers, ih, List.map_cons]

/-- A number has no parts, whichever kind of number its numeral stands for. -/
theorem child?_numeral (numeral : Numeral) (segment : String) :
    numeral.value.child? segment = none := by
  unfold Numeral.value
  split
  · split <;> rfl
  · split <;> rfl
  · rfl

/-- One segment leads to the value of what it leads to in the data. -/
theorem child?_ofData {data : Data} (hdata : data.WellFormed) (segment : String) :
    (ofData data).child? segment = (data.child? segment).map ofData := by
  cases hdata with
  | number numeral => exact child?_numeral numeral segment
  | @list items hlength _ =>
    have hitems := Data.getElem?_position64? hlength segment
    rw [ofData, ofDataList_eq_map, child?, Data.child?, hitems]
    simp [Option.map_bind]
  | @record members hnodup _ =>
    have hnames : ((ofDataMembers members).map Prod.fst).Nodup := by
      rw [ofDataMembers_eq_map, List.map_map]
      exact hnodup
    rw [ofData, child?, Members.lookup_ofPairs hnames, ofDataMembers_eq_map, Members.lookup_map]
    rfl
  | _ => rfl

/-- What a path leads to in the value of data is the value of what it leads to in the data. -/
theorem follow?_ofData {data : Data} (hdata : data.WellFormed) (path : List String) :
    (ofData data).follow? path = (data.follow? path).map ofData := by
  induction path generalizing data with
  | nil => rfl
  | cons segment path ih =>
    rw [follow?_cons, child?_ofData hdata, Data.follow?, List.foldlM_cons]
    cases hfound : data.child? segment with
    | none => rfl
    | some found => exact ih (hdata.child hfound)

/-- A path is followed part by part. -/
theorem follow?_append (value : Value) (path more : List String) :
    value.follow? (path ++ more) =
      (value.follow? path).bind fun found ↦ found.follow? more :=
  List.foldlM_append

/-- A word names an item of a list by its digits, and only if it has nothing else. -/
theorem isSome_follow?_list_iff {segment : String} (hname : IsName segment) (items : List Value) :
    ((list items).follow? [segment]).isSome = true ↔
      (∀ c ∈ segment.toList, c.isDigit = true) ∧
        Nat.ofDigitChars 10 segment.toList 0 < items.length := by
  have hplain : Data.withoutPlus segment.toList = segment.toList := by
    rw [Data.withoutPlus, if_neg]
    intro hhead
    exact absurd (hname.2 '+' (List.mem_of_mem_head? hhead)) (by decide)
  have hchild : (list items).follow? [segment] =
      (natural? segment.toList).bind fun position ↦ items[position]? := by
    rw [follow?_cons, child?, Data.natural?_withoutPlus, hplain]
    exact Option.bind_fun_some _
  rw [hchild, natural?]
  by_cases hdigits : segment.toList.all Char.isDigit = true
  · have hall : ∀ c ∈ segment.toList, c.isDigit = true := List.all_eq_true.1 hdigits
    rw [if_pos ⟨hname.1, hdigits⟩, Option.bind_some]
    simp only [isSome_getElem?, and_iff_right hall]
  · have hother : ¬∀ c ∈ segment.toList, c.isDigit = true := fun hall ↦
      hdigits (List.all_eq_true.2 hall)
    rw [if_neg fun habsurd ↦ hdigits habsurd.2]
    simp only [Option.bind_none, Option.isSome_none, Bool.false_eq_true, hother, false_and]

end Value

/-! ### Contexts of data -/

namespace Context

theorem bindings_foldl_insert (members : List (String × Data)) (context : Context) :
    (members.foldl (fun context member ↦ context.insert member.1 (.ofData member.2))
      context).bindings =
    (Value.ofDataMembers members).foldl
      (fun bindings member ↦ Members.insert member.1 member.2 bindings) context.bindings := by
  induction members generalizing context with
  | nil => rfl
  | cons member members ih =>
    rw [List.foldl_cons, ih, Value.ofDataMembers, List.foldl_cons]
    rfl

/-- The variables of a record are followed as its members are. -/
theorem follow?_ofData (members : List (String × Data)) {path : List String} (hpath : path ≠ []) :
    (ofData (.record members)).follow? path = (Value.ofData (.record members)).follow? path := by
  obtain ⟨name, path, rfl⟩ := List.exists_cons_of_ne_nil hpath
  rw [follow?, get?, ofData, bindings_foldl_insert]
  rfl

/-- Data that is no record makes a context in which no path leads anywhere. -/
theorem follow?_ofData_eq_none {data : Data} (hdata : ∀ members, data ≠ .record members)
    (path : List String) : (ofData data).follow? path = none := by
  cases data with
  | record members => exact (hdata members rfl).elim
  | _ => cases path <;> rfl

end Context

/-! ### Lookups -/

/-- The operands of an expression and of its filters, in order. -/
def Expression.operands (expression : Expression) : List Operand :=
  expression.operand :: expression.filters.flatMap FilterCall.arguments

/-- The operands of a well formed expression are well formed, those of its filters too. -/
theorem Expression.WellFormed.operand_of_mem {options : Options} {expression : Expression}
    (hexpression : expression.WellFormed options) {operand : Operand}
    (hoperand : operand ∈ expression.operands) : operand.WellFormed := by
  rcases List.mem_cons.1 hoperand with rfl | hargument
  · exact hexpression.operand
  · obtain ⟨call, hcall, hmem⟩ := List.mem_flatMap.1 hargument
    exact (hexpression.filters call hcall).arguments operand hmem

/-- Paths agree in data, in the values of data and in contexts of data, and a path is followed part
by part. In a lookup that was read, a segment leads to an item of a list exactly if it consists of
digits and the number they spell is the position of an item; the lookup has the value that it leads
to, or null. -/
theorem Value.access_agrees (data : Data) (value : Value) (path more : List String) :
    (data.WellFormed →
      (Value.ofData data).follow? path = (data.follow? path).map Value.ofData) ∧
    value.follow? (path ++ more) =
      (value.follow? path).bind (fun found ↦ found.follow? more) ∧
    (∀ members, data = .record members → path ≠ [] →
      (Context.ofData data).follow? path = (Value.ofData data).follow? path) ∧
    ((∀ members, data ≠ .record members) → (Context.ofData data).follow? path = none) ∧
    ∀ options source expression lookup, Expression.scan options source = .ok expression →
      .lookup lookup ∈ expression.operands →
      (∀ segment ∈ lookup, ∀ items : List Value,
        ((Value.list items).follow? [segment]).isSome = true ↔
          (∀ c ∈ segment.toList, c.isDigit = true) ∧
            Nat.ofDigitChars 10 segment.toList 0 < items.length) ∧
      ∀ context : Context,
        (∀ found, context.follow? lookup = some found →
          Operand.evaluate context (.lookup lookup) = found) ∧
        (context.follow? lookup = none → Operand.evaluate context (.lookup lookup) = .null) := by
  refine ⟨fun hdata ↦ Value.follow?_ofData hdata path, Value.follow?_append value path more, ?_,
    fun hdata ↦ Context.follow?_ofData_eq_none hdata path, ?_⟩
  · rintro members rfl hpath
    exact Context.follow?_ofData members hpath
  · intro options source expression lookup hscan hlookup
    have hpath : Lookup.WellFormed lookup :=
      (Expression.wellFormed_of_scan hscan).operand_of_mem hlookup
    refine ⟨fun segment hsegment items ↦ ?_, fun context ↦ ⟨fun found hfound ↦ ?_, fun hmiss ↦ ?_⟩⟩
    · exact Value.isSome_follow?_list_iff (hpath.isName_of_mem segment hsegment) items
    · rw [Operand.evaluate, hfound, Option.getD_some]
    · rw [Operand.evaluate, hmiss, Option.getD_none]

/-- A position with a leading zero, and one that 64 bits would bring round to an item. -/
theorem Value.access_agrees_positions :
    (Data.record [("items", .list [.text "a", .text "b"])]).WellFormed ∧
    Expression.scan {} "items.01" = .ok ⟨.lookup ["items", "01"], []⟩ ∧
    (Value.ofData (.record [("items", .list [.text "a", .text "b"])])).follow? ["items", "01"] =
      some (.text "b") ∧
    (Context.ofData (.record [("items", .list [.text "a", .text "b"])])).follow? ["items", "01"] =
      some (.text "b") ∧
    (Value.ofData (.record [("items", .list [.text "a", .text "b"])])).follow?
      ["items", "18446744073709551617"] = none ∧
    ((Value.list [.text "a", .text "b"]).follow? ["01"]).isSome = true := by
  have hdata : (Data.record [("items", .list [.text "a", .text "b"])]).WellFormed := by
    refine .record (by decide) (List.forall_mem_singleton.2 (.list (by decide) ?_))
    exact List.forall_mem_cons.2 ⟨.text "a", List.forall_mem_singleton.2 (.text "b")⟩
  have hscan : Expression.scan {} "items.01" = .ok ⟨.lookup ["items", "01"], []⟩ := by
    decide +kernel
  obtain ⟨hvalue, -, hcontext, -, hlookups⟩ := Value.access_agrees
    (.record [("items", .list [.text "a", .text "b"])]) .null ["items", "01"] []
  have hfar := (Value.access_agrees (.record [("items", .list [.text "a", .text "b"])]) .null
    ["items", "18446744073709551617"] []).1 hdata
  have hreached := hvalue hdata
  refine ⟨hdata, hscan, hreached, (hcontext _ rfl (by decide)).trans hreached, hfar, ?_⟩
  exact ((hlookups {} "items.01" _ _ hscan List.mem_cons_self).1 "01" (by decide) _).2
    ⟨List.all_eq_true.1 rfl, by decide⟩

end Stencil
