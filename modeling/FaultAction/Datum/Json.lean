import FaultAction.Datum.Basic
import FaultAction.Wire.Basic

namespace FaultAction.Datum

/-!
# Dynamic values and JSON trees

A dynamic value has a tree, and every tree has a dynamic value:

* `Datum.toJson`    — the tree of a value;
* `Datum.ofJson`    — the value of a tree, chosen by the kind of the tree and, for integers, by the
  least width that holds them;
* `Datum.Raw.read?` — the value of a tree, found by trying the kinds of values in order;
* `Datum.Raw.read?_eq` — the two readers agree, so trial never fails.

A tree has no place for the width of an integer, nor for a NaN or an infinity, which become null.
-/

namespace Raw

/-! ### Writing -/

mutual

/-- The tree of a value, in which an `int` and a `long` are numbers alike, and a `double` without a
    number is null. -/
def toJson : Datum.Raw → Json
  | .null => .null
  | .int n => .int (.ofInt32 n)
  | .long n => .int (.ofInt64 n)
  | .double x => .double x
  | .bool b => .bool b
  | .str s => .str s
  | .map es => .obj (entriesToJson es)
  | .list xs => .arr (elemsToJson xs)
termination_by structural d => d

/-- The members of an object by the entries of a `map`, in the same order. -/
def entriesToJson : List (String × Datum.Raw) → List (String × Json)
  | [] => []
  | (k, d) :: es => (k, d.toJson) :: entriesToJson es
termination_by structural es => es

/-- The elements of an array by the elements of a `list`. -/
def elemsToJson : List Datum.Raw → List Json
  | [] => []
  | d :: xs => d.toJson :: elemsToJson xs
termination_by structural xs => xs

end

/-! ### Reading by the kind of the tree -/

/-- The value of the integer `n`: 32 bits wide if it fits, otherwise 64 bits, otherwise the nearest
    double. -/
def ofInteger (n : Json.Integer) : Datum.Raw :=
  if -2147483648 ≤ n.val ∧ n.val < 2147483648 then .int (Int32.ofInt n.val)
  else if n.val < 9223372036854775808 then .long (Int64.ofInt n.val)
  else .double (.ofInt n.val)

mutual

/-- The value of a tree, chosen by its kind.  Objects may have any order of members. -/
def ofJson : Json → Datum.Raw
  | .null => .null
  | .bool b => .bool b
  | .num (.int n) => ofInteger n
  | .num (.float x _) => .double x
  | .str s => .str s
  | .arr xs => .list (elemsOfJson xs)
  | .obj ms => .map (entriesOfJson ms)
termination_by structural j => j

/-- The values of the elements of an array, by `ofJson`. -/
def elemsOfJson : List Json → List Datum.Raw
  | [] => []
  | x :: xs => ofJson x :: elemsOfJson xs
termination_by structural xs => xs

/-- The entries of a map by the members of an object, each by `ofJson` and in key order; of two
    members of one name the later one counts. -/
def entriesOfJson : List (String × Json) → Members Datum.Raw
  | [] => []
  | (k, v) :: ms => Members.adopt k (ofJson v) (entriesOfJson ms)
termination_by structural ms => ms

end

/-! ### Reading by trial -/

/-- The value of the tree `j` by the first kind that can be read from it, among those that hold no
    other values. -/
def readScalar? (j : Json) : Option Datum.Raw :=
  (Datum.Raw.int <$> (Wire.read j).toOption)
    <|> (Datum.Raw.long <$> (Wire.read j).toOption)
    <|> (Datum.Raw.double <$> (Wire.read j).toOption)
    <|> (Datum.Raw.bool <$> (Wire.read j).toOption)
    <|> (Datum.Raw.str <$> (Wire.read j).toOption)

mutual

/-- The value of a tree by the first kind of value that can be read from it, in the order of 32-bit
    integer, 64-bit integer, double, boolean, string, map, list, null. -/
def read? : Json → Option Datum.Raw
  | .obj ms => readScalar? (.obj ms) <|> Datum.Raw.map <$> readEntries? ms
  | .arr xs => readScalar? (.arr xs) <|> Datum.Raw.list <$> readElems? xs
  | j =>
    readScalar? j <|> (fun () => Datum.Raw.null) <$> (Wire.read j).toOption
termination_by structural j => j

/-- The entries of a map by the members of an object, in key order, if `read?` succeeds on every
    value. -/
def readEntries? : List (String × Json) → Option (Members Datum.Raw)
  | [] => some []
  | (k, v) :: ms => do
    let d ← read? v
    let es ← readEntries? ms
    return Members.adopt k d es
termination_by structural ms => ms

/-- The values of the elements of an array, if `read?` succeeds on every one. -/
def readElems? : List Json → Option (List Datum.Raw)
  | [] => some []
  | x :: xs => do
    let d ← read? x
    let ds ← readElems? xs
    return d :: ds
termination_by structural xs => xs

end

/-! ### Order of keys -/

/-- Entries stay well keyed when a well keyed `d` is adopted under `k`: each value of the new list
    is `d` or was there before. -/
theorem entriesWellKeyed_adopt {k : String} {d : Datum.Raw} {es : Members Datum.Raw}
    (hd : d.WellKeyed) (hes : EntriesWellKeyed es) :
    EntriesWellKeyed (Members.adopt k d es) := by
  rw [entriesWellKeyed_iff] at hes ⊢
  intro e he
  rcases Members.mem_adopt he with rfl | he
  · exact hd
  · exact hes e he

/-- The value of an integer `n` has no keys, whichever of the three kinds it is of. -/
theorem wellKeyed_ofInteger (n : Json.Integer) : (ofInteger n).WellKeyed := by
  unfold ofInteger
  split
  · trivial
  · split <;> trivial

mutual

/-- The value of any tree is `WellKeyed`, whatever the order of the members of its objects. -/
theorem wellKeyed_ofJson : (j : Json) → (ofJson j).WellKeyed
  | .null | .bool _ | .num (.float _ _) | .str _ => trivial
  | .num (.int n) => wellKeyed_ofInteger n
  | .arr xs => elemsWellKeyed_ofJson xs
  | .obj ms => entriesWellKeyed_ofJson ms
termination_by structural j => j

/-- The values of the elements are well keyed, as `wellKeyed_ofJson` says of each. -/
theorem elemsWellKeyed_ofJson : (xs : List Json) → ElemsWellKeyed (elemsOfJson xs)
  | [] => trivial
  | x :: xs => ⟨wellKeyed_ofJson x, elemsWellKeyed_ofJson xs⟩
termination_by structural xs => xs

/-- The entries of the members ascend, as `Members.adopt` keeps them, and their values are well
    keyed. -/
theorem entriesWellKeyed_ofJson :
    (ms : List (String × Json)) →
      Members.Ascending (entriesOfJson ms) ∧ EntriesWellKeyed (entriesOfJson ms)
  | [] => ⟨List.Pairwise.nil, trivial⟩
  | (_, v) :: ms =>
    ⟨Members.ascending_adopt (entriesWellKeyed_ofJson ms).1,
      entriesWellKeyed_adopt (wellKeyed_ofJson v) (entriesWellKeyed_ofJson ms).2⟩
termination_by structural ms => ms

end

/-! ### Agreement of the two readers -/

/-- Trial gives `ofInteger n` for the integer `n`: the first kind that takes it is the narrowest one
    that holds it. -/
theorem readScalar?_int (n : Json.Integer) :
    readScalar? (.num (.int n)) = some (ofInteger n) := by
  obtain ⟨n, lower, upper⟩ := n
  simp only [readScalar?, Wire.read, Wire.readInteger, ofInteger]
  by_cases h32 : -2147483648 ≤ n ∧ n < 2147483648
  · rw [if_pos h32, if_pos h32]; rfl
  · by_cases h64 : n < 9223372036854775808 <;> simp only [h32, h64, lower] <;> rfl

mutual

/-- Trial finds for every tree the value that `ofJson` chooses by the kind of the tree, and so never
    fails. -/
theorem read?_eq : (j : Json) → read? j = some (ofJson j)
  | .null | .bool _ | .num (.float _ _) | .str _ => rfl
  | .num (.int n) => by
    simp only [read?, readScalar?_int, ofJson]; rfl
  | .arr xs => by
    simp only [read?, readElems?_eq xs, ofJson]; rfl
  | .obj ms => by
    simp only [read?, readEntries?_eq ms, ofJson]; rfl
termination_by structural j => j

/-- Trial reads every element of an array, as `elemsOfJson` does. -/
theorem readElems?_eq : (xs : List Json) → readElems? xs = some (elemsOfJson xs)
  | [] => rfl
  | x :: xs => by simp [readElems?, elemsOfJson, read?_eq x, readElems?_eq xs]
termination_by structural xs => xs

/-- Trial reads every member of an object, as `entriesOfJson` does. -/
theorem readEntries?_eq :
    (ms : List (String × Json)) → readEntries? ms = some (entriesOfJson ms)
  | [] => rfl
  | (k, v) :: ms => by simp [readEntries?, entriesOfJson, read?_eq v, readEntries?_eq ms]
termination_by structural ms => ms

end

/-- Some kind of value takes the tree `j`, whatever it is. -/
theorem isSome_read? (j : Json) : (read? j).isSome := by rw [read?_eq]; rfl

/-- What trial finds is well keyed, since it is what `ofJson` gives. -/
theorem wellKeyed_of_read? {j : Json} {d : Datum.Raw} (h : read? j = some d) : d.WellKeyed := by
  rw [read?_eq] at h
  cases h
  exact wellKeyed_ofJson j

end Raw

/-- The tree of the dynamic value `d`. -/
def toJson (d : Datum) : Json := d.raw.toJson

/-- The dynamic value of the tree `j`, chosen by its kind. -/
def ofJson (j : Json) : Datum := ⟨Raw.ofJson j, Raw.wellKeyed_ofJson j⟩

/-- The dynamic value of the tree `j` by trial, as values are read from the wire. -/
def read (j : Json) : Datum where
  raw := (Raw.read? j).get (Raw.isSome_read? j)
  wellKeyed := Raw.wellKeyed_of_read? (Option.some_get _).symm

instance : Wire Datum where
  read j := .ok (read j)
  write := toJson

end FaultAction.Datum
