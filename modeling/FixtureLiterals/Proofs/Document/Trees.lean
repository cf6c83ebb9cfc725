import FixtureLiterals.Proofs.Binary64.Whole
import FixtureLiterals.Proofs.Document.Tokens

/-!
# Documents are read back

The text of a tree leads from the start of a value to the end of that value, with the tree
complete and with the same containers open. Inside a container this is a loop: one turn of it
takes a comma and the next item, and the loop goes on with one more item complete. Since the
tree comes to its end by itself, the whole text gives the whole tree.

How deep the containers of a tree nest is a property of the tree. A tree that holds integers
and texts can be set aside wherever it does not nest too deep.
-/

namespace FixtureLiterals.Document

open Text

/-- Trees all of whose numbers are integers of at most sixty-four bits, and all of whose
texts and keys denote something. -/
inductive Tree.Plain : Tree → Prop where
  | null : Plain .null
  | bool (value : Bool) : Plain (.bool value)
  | number {number : Int} (bounded : number.natAbs < 2 ^ 64) : Plain (.number (.ofInt number))
  | text (content : String) : Plain (.text (some content))
  | array {items : List Tree} (inside : ∀ item ∈ items, Plain item) : Plain (.array items)
  | object {members : List (Option String × Tree)}
      (keyed : ∀ member ∈ members, member.1.isSome = true)
      (inside : ∀ member ∈ members, Plain member.2) : Plain (.object members)

namespace Progress

/-- A state in which a value begins inside some open containers. -/
def Begins (progress : Progress) (frames : List Frame) : Prop :=
  ∀ token, token ≠ .closeArray → progress.step token = begin frames token

/-- A value begins where one is awaited. -/
theorem begins_awaitValue (frames : List Frame) : (awaitValue frames).Begins frames :=
  fun _ _ => rfl

/-- A value begins an array that was just opened. -/
theorem begins_awaitItem (frames : List Frame) :
    (awaitItem frames).Begins (.array [] :: frames) := by
  intro token opening
  cases token <;> first | rfl | exact absurd rfl opening

/-- Reading the text of a tree completes the tree, wherever its value begins. -/
def Completes (tree : Tree) : Prop :=
  ∀ {progress : Progress} {frames : List Frame}, progress.Begins frames →
    ∀ {rest : List Char}, Stops rest →
      progress.advance (tree.tokens.flatMap Token.characters ++ rest) =
        (complete tree frames).advance rest

/-- A token that is a value by itself completes the value. -/
theorem completes_of_token {tree : Tree} {token : Token} (single : tree.tokens = [token])
    (plain : token.Plain) (begun : ∀ frames, begin frames token = some (.complete tree frames))
    (value : token ≠ .closeArray) : Completes tree := by
  intro progress frames begins rest stops
  rw [single, List.flatMap_singleton, advance_token _ plain fun _ _ => stops, begins token value,
    begun, Option.bind_some]

/-- A token that is no numeral is taken whatever stands behind it. -/
theorem advance_mark (progress : Progress) {token : Token} (plain : token.Plain)
    (mark : ∀ numeral, token ≠ .number numeral) (rest : List Char) :
    progress.advance (token.characters ++ rest) =
      (progress.step token).bind fun next => next.advance rest :=
  advance_token progress plain fun numeral same => absurd same (mark numeral)

/-- Behind an item of an array there is a comma or the end of the array. -/
theorem stops_laterItems (items : List Tree) (rest : List Char) :
    Stops ((Tree.laterItems items).flatMap Token.characters ++ rest) := by
  cases items with
  | nil => exact stops_cons (by decide) _
  | cons item items =>
    rw [Tree.laterItems, List.cons_append, List.flatMap_cons]
    exact stops_cons (by decide) _

/-- Behind a member of an object there is a comma or the end of the object. -/
theorem stops_laterMembers (members : List (Option String × Tree)) (rest : List Char) :
    Stops ((Tree.laterMembers members).flatMap Token.characters ++ rest) := by
  cases members with
  | nil => exact stops_cons (by decide) _
  | cons member members =>
    obtain ⟨key, value⟩ := member
    rw [Tree.laterMembers, List.cons_append, List.flatMap_cons]
    exact stops_cons (by decide) _

/-- The items behind a complete one complete the array, one by one. -/
theorem advance_laterItems {items : List Tree} (each : ∀ item ∈ items, Completes item)
    (last : Tree) (earlier : List Tree) (frames : List Frame) (rest : List Char) :
    (complete last (.array earlier :: frames)).advance
        ((Tree.laterItems items).flatMap Token.characters ++ rest) =
      (complete (.array (earlier.reverse ++ last :: items)) frames).advance rest := by
  induction items generalizing last earlier with
  | nil =>
    rw [Tree.laterItems, List.flatMap_singleton, advance_mark _ .closeArray nofun, step,
      Option.bind_some, List.reverse_cons]
  | cons item items inductionHypothesis =>
    have later : ∀ other ∈ items, Completes other :=
      fun other listed => each other (List.mem_cons_of_mem item listed)
    rw [Tree.laterItems, List.cons_append, List.flatMap_cons, List.flatMap_append,
      List.append_assoc, List.append_assoc, advance_mark _ .comma nofun, step, Option.bind_some,
      each item List.mem_cons_self (begins_awaitValue _) (stops_laterItems items rest),
      inductionHypothesis later, List.reverse_cons, List.append_assoc, List.singleton_append]

/-- A key, its colon and its value lead to the complete value. -/
theorem advance_member {progress : Progress} {members : List (Option String × Tree)}
    {frames : List Frame} {key : String} {value : Tree} (completes : Completes value)
    (awaits : progress.step (.text (some key)) = some (.awaitColon members (some key) frames))
    {rest : List Char} (stops : Stops rest) :
    progress.advance ((Token.text (some key)).characters ++ (Token.colon.characters ++
        (value.tokens.flatMap Token.characters ++ rest))) =
      (complete value (.object members (some key) :: frames)).advance rest := by
  rw [advance_mark _ (.text key) nofun, awaits, Option.bind_some, advance_mark _ .colon nofun, step,
    Option.bind_some, completes (begins_awaitValue _) stops]

/-- The members behind a complete one complete the object, one by one. -/
theorem advance_laterMembers {members : List (Option String × Tree)}
    (keyed : ∀ member ∈ members, member.1.isSome = true)
    (each : ∀ member ∈ members, Completes member.2) (key : Option String) (last : Tree)
    (earlier : List (Option String × Tree)) (frames : List Frame) (rest : List Char) :
    (complete last (.object earlier key :: frames)).advance
        ((Tree.laterMembers members).flatMap Token.characters ++ rest) =
      (complete (.object (earlier.reverse ++ (key, last) :: members)) frames).advance rest := by
  induction members generalizing key last earlier with
  | nil =>
    rw [Tree.laterMembers, List.flatMap_singleton, advance_mark _ .closeObject nofun, step,
      Option.bind_some, List.reverse_cons]
  | cons member members inductionHypothesis =>
    obtain ⟨name, value⟩ := member
    obtain ⟨name, rfl⟩ := Option.isSome_iff_exists.mp (keyed _ List.mem_cons_self)
    rw [List.forall_mem_cons] at keyed each
    simp only [Tree.laterMembers, List.cons_append, List.flatMap_cons, List.flatMap_append,
      List.append_assoc]
    rw [advance_mark _ .comma nofun, step, Option.bind_some,
      advance_member each.1 rfl (stops_laterMembers members rest),
      inductionHypothesis keyed.2 each.2, List.reverse_cons, List.append_assoc,
      List.singleton_append]

/-- The text of an array completes the array. -/
theorem completes_array {items : List Tree} (each : ∀ item ∈ items, Completes item) :
    Completes (.array items) := by
  intro progress frames begins rest stops
  cases items with
  | nil =>
    rw [Tree.tokens, List.flatMap_cons, List.flatMap_singleton, List.append_assoc,
      advance_mark _ .openArray nofun, begins .openArray nofun, begin, Option.bind_some,
      advance_mark _ .closeArray nofun, step, Option.bind_some]
  | cons item items =>
    rw [List.forall_mem_cons] at each
    rw [Tree.tokens, List.cons_append, List.flatMap_cons, List.flatMap_append, List.append_assoc,
      List.append_assoc, advance_mark _ .openArray nofun, begins .openArray nofun, begin, Option.bind_some,
      each.1 (begins_awaitItem _) (stops_laterItems items rest), advance_laterItems each.2]
    rfl

/-- The text of an object completes the object. -/
theorem completes_object {members : List (Option String × Tree)}
    (keyed : ∀ member ∈ members, member.1.isSome = true)
    (each : ∀ member ∈ members, Completes member.2) : Completes (.object members) := by
  intro progress frames begins rest stops
  cases members with
  | nil =>
    rw [Tree.tokens, List.flatMap_cons, List.flatMap_singleton, List.append_assoc,
      advance_mark _ .openObject nofun, begins .openObject nofun, begin, Option.bind_some,
      advance_mark _ .closeObject nofun, step, Option.bind_some]
  | cons member members =>
    obtain ⟨name, value⟩ := member
    obtain ⟨name, rfl⟩ := Option.isSome_iff_exists.mp (keyed _ List.mem_cons_self)
    rw [List.forall_mem_cons] at keyed each
    simp only [Tree.tokens, List.cons_append, List.flatMap_cons, List.flatMap_append,
      List.append_assoc]
    rw [advance_mark _ .openObject nofun, begins .openObject nofun, begin, Option.bind_some,
      advance_member each.1 rfl (stops_laterMembers members rest), advance_laterMembers keyed.2 each.2]
    rfl

end Progress

namespace Tree

open Progress

/-- The text of a plain tree completes the tree. -/
theorem Plain.completes {tree : Tree} (plain : tree.Plain) : Completes tree := by
  induction plain with
  | null => exact completes_of_token (by rw [tokens]) .null (fun _ => rfl) nofun
  | bool value => exact completes_of_token (by rw [tokens]) (.bool value) (fun _ => rfl) nofun
  | number => exact completes_of_token (by rw [tokens]) (.number _) (fun _ => rfl) nofun
  | text content => exact completes_of_token (by rw [tokens]) (.text content) (fun _ => rfl) nofun
  | array _ inductionHypothesis => exact completes_array inductionHypothesis
  | object keyed _ inductionHypothesis => exact completes_object keyed inductionHypothesis

/-- A plain document is read back from its compact text. -/
theorem parse?_compact {tree : Tree} (plain : tree.Plain) : parse? tree.compact = some tree := by
  have ends : Stops [] := nofun
  have whole := plain.completes (begins_awaitValue []) ends
  rw [List.append_nil] at whole
  rw [parse?, compact, String.toList_ofList, whole, advance]
  rfl

mutual

/-- How deep the containers of a tree nest. -/
def height : Tree → Nat
  | .array items => itemsHeight items + 1
  | .object members => membersHeight members + 1
  | .null | .bool _ | .number _ | .text _ => 0

/-- How deep the containers of an array's items nest. -/
def itemsHeight : List Tree → Nat
  | [] => 0
  | item :: items => max (height item) (itemsHeight items)

/-- How deep the containers in an object's members nest. -/
def membersHeight : List (Option String × Tree) → Nat
  | [] => 0
  | (_, value) :: members => max (height value) (membersHeight members)

end

/-- An array's items nest no deeper than some depth if each of them does. -/
theorem itemsHeight_le_iff {items : List Tree} {depth : Nat} :
    itemsHeight items ≤ depth ↔ ∀ item ∈ items, item.height ≤ depth := by
  induction items with
  | nil => simp [itemsHeight]
  | cons item items inductionHypothesis => simp [itemsHeight, inductionHypothesis]

/-- An object's members nest no deeper than some depth if each of them does. -/
theorem membersHeight_le_iff {members : List (Option String × Tree)} {depth : Nat} :
    membersHeight members ≤ depth ↔ ∀ member ∈ members, member.2.height ≤ depth := by
  induction members with
  | nil => simp [membersHeight]
  | cons member members inductionHypothesis =>
    obtain ⟨key, value⟩ := member
    simp [membersHeight, inductionHypothesis]

/-- The items of an array can be set aside if each of them can. -/
theorem itemsSound_iff {items : List Tree} {depth : Nat} :
    itemsSound depth items = true ↔ ∀ item ∈ items, item.isSound depth = true := by
  induction items with
  | nil => simp [itemsSound]
  | cons item items inductionHypothesis => simp [itemsSound, inductionHypothesis]

/-- The members of an object can be set aside if each of them has a key and can. -/
theorem membersSound_iff {members : List (Option String × Tree)} {depth : Nat} :
    membersSound depth members = true ↔
      ∀ member ∈ members, member.1.isSome = true ∧ member.2.isSound depth = true := by
  induction members with
  | nil => simp [membersSound]
  | cons member members inductionHypothesis =>
    obtain ⟨key, value⟩ := member
    simp [membersSound, inductionHypothesis]

/-- An array can be set aside one level above where all its items can. -/
theorem isSound_array_iff {items : List Tree} {depth : Nat} :
    (Tree.array items).isSound depth = true ↔
      ∃ below, depth = below + 1 ∧ ∀ item ∈ items, item.isSound below = true := by
  rw [Tree.isSound, Bool.and_eq_true, decide_eq_true_eq, itemsSound_iff]
  constructor
  · rintro ⟨deep, inside⟩
    exact ⟨depth - 1, by omega, inside⟩
  · rintro ⟨below, rfl, inside⟩
    exact ⟨below.succ_pos, inside⟩

/-- An object can be set aside one level above where all its contents can, if it has all keys. -/
theorem isSound_object_iff {members : List (Option String × Tree)} {depth : Nat} :
    (Tree.object members).isSound depth = true ↔
      ∃ below, depth = below + 1 ∧
        ∀ member ∈ members, member.1.isSome = true ∧ member.2.isSound below = true := by
  rw [Tree.isSound, Bool.and_eq_true, decide_eq_true_eq, membersSound_iff]
  constructor
  · rintro ⟨deep, inside⟩
    exact ⟨depth - 1, by omega, inside⟩
  · rintro ⟨below, rfl, inside⟩
    exact ⟨below.succ_pos, inside⟩

/-- Integers of at most sixty-four bits are in the range of floats. -/
theorem numeralFloat?_ofInt {number : Int} (bounded : number.natAbs < 2 ^ 64) :
    (numeralFloat? (.ofInt number)).isSome = true := by
  have scale : (Numeral.ofInt number).scale = 0 := rfl
  rw [numeralFloat?, Numeral.significand_ofInt, scale]
  exact Binary64.ofDecimal?_whole _ bounded

/-- A plain tree can be set aside where it does not nest too deep. -/
theorem Plain.isSound {tree : Tree} (plain : tree.Plain) {depth : Nat}
    (shallow : tree.height ≤ depth) : tree.isSound depth = true := by
  induction plain generalizing depth with
  | null | bool => rw [Tree.isSound]
  | number bounded =>
    rw [Tree.isSound]
    exact numeralFloat?_ofInt bounded
  | text content =>
    rw [Tree.isSound]
    rfl
  | array inside inductionHypothesis =>
    rw [height] at shallow
    have items := itemsHeight_le_iff.mp (Nat.le_sub_one_of_lt shallow)
    refine isSound_array_iff.mpr ⟨depth - 1, by omega, fun item listed => ?_⟩
    exact inductionHypothesis item listed (items item listed)
  | object keyed inside inductionHypothesis =>
    rw [height] at shallow
    have contents := membersHeight_le_iff.mp (Nat.le_sub_one_of_lt shallow)
    refine isSound_object_iff.mpr ⟨depth - 1, by omega, fun member listed => ?_⟩
    exact ⟨keyed member listed, inductionHypothesis member listed (contents member listed)⟩

end Tree

end FixtureLiterals.Document
