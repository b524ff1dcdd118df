/-!
Named members in ascending order of their names. A member is put where its name belongs and takes
the place of one with the same name, so that equal members are kept as equal lists. Members are
found by `List.lookup`, and `lookup_insert` says what a change does to every name.
-/

set_option autoImplicit false
set_option relaxedAutoImplicit false

namespace Stencil.Members

variable {α : Type}

/-- The members with one more, or with one replaced. -/
def insert (name : String) (item : α) : List (String × α) → List (String × α)
  | [] => [(name, item)]
  | member :: rest =>
    if name < member.1 then (name, item) :: member :: rest
    else if name = member.1 then (name, item) :: rest
    else member :: insert name item rest

/-- The members given by the pairs; of two with one name the later stays. -/
def ofPairs (pairs : List (String × α)) : List (String × α) :=
  pairs.foldl (fun members pair ↦ insert pair.1 pair.2 members) []

theorem lookup_cons (key : String) (member : String × α) (rest : List (String × α)) :
    (member :: rest).lookup key =
      if key = member.1 then some member.2 else rest.lookup key := by
  rw [List.lookup_cons]
  by_cases hkey : key = member.1
  · simp [hkey]
  · simp [hkey, beq_false_of_ne hkey]

/-- An inserted member is found under its name, and the other names are not affected. -/
theorem lookup_insert (key name : String) (item : α) (members : List (String × α)) :
    (insert name item members).lookup key =
      if key = name then some item else members.lookup key := by
  induction members with
  | nil => simp [insert, lookup_cons]
  | cons member rest ih =>
    unfold insert
    split
    · rw [lookup_cons]
    · split
      · rename_i hname
        simp only [lookup_cons, hname]
        split <;> simp_all
      · rename_i hname
        simp only [lookup_cons, ih]
        by_cases hkey : key = member.1
        · have hne : ¬key = name := fun heq ↦ hname (heq.symm.trans hkey)
          simp [hkey, hkey ▸ hne]
        · simp [hkey]

end Stencil.Members
