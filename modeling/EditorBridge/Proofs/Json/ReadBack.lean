import EditorBridge.Proofs.Json.Tokens
/-!
# Values read back from their compact text

The compact text of a value is read as that value, with the members of objects
in order, whatever follows the text: `value_chars`. Only floating-point numbers
are left out, and a value may not be nested deeper than the reader goes.
-/

namespace EditorBridge.Json

open Text (Bytes encodeChars)

/-! ## What is read back -/

mutual

/-- How many lists and objects there are around each other. -/
def depth : Json → Nat
  | .arr items => depthItems items + 1
  | .obj members => depthMembers members + 1
  | _ => 0

/-- The greatest depth in a list. -/
def depthItems : List Json → Nat
  | [] => 0
  | x :: rest => max x.depth (depthItems rest)

/-- The greatest depth in the members' values. -/
def depthMembers : List (String × Json) → Nat
  | [] => 0
  | (_, v) :: rest => max v.depth (depthMembers rest)

end

/-- A number only if it is an integer of 64 bits. -/
def Integral : Json → Prop
  | .int n => InWord n
  | .float _ => False
  | _ => True

/-- A value without floating-point numbers whose integers are of 64 bits. -/
def Exact (j : Json) : Prop := j.Every Integral

namespace Scan

/-! ## Lists and objects -/

/-- A byte that a value can begin with: no space, and not the end of a list. -/
def Begins (b : UInt8) : Prop := isSpace b = false ∧ b ≠ byte ']'

instance : DecidablePred Begins := fun b =>
  inferInstanceAs (Decidable (isSpace b = false ∧ b ≠ byte ']'))

theorem skipSpace_begins {b : UInt8} {bs : Bytes} (h : isSpace b = false) :
    skipSpace (b :: bs) = b :: bs := by
  simp [skipSpace, h]

/-- The text of a value begins with a byte of its own. -/
theorem chars_begin (j : Json) (h : j.Exact) :
    ∃ b bs, encodeChars j.chars = b :: bs ∧ Begins b := by
  cases j with
  | null => exact ⟨byte 'n', _, rfl, by decide⟩
  | bool b =>
    cases b with
    | false => exact ⟨byte 'f', _, rfl, by decide⟩
    | true => exact ⟨byte 't', _, rfl, by decide⟩
  | int n =>
    obtain ⟨b, bs, he, hb⟩ := chars_int_begin n
    exact ⟨b, bs, he, hb.isSpace, hb.ne (by decide) (by decide)⟩
  | float x => exact absurd h id
  | str s => exact ⟨byte '"', _, rfl, by decide⟩
  | arr items => exact ⟨byte '[', _, by rw [chars]; rfl, by decide⟩
  | obj members => exact ⟨byte '\x7b', _, by rw [chars]; rfl, by decide⟩

/-- What separates an item from the one before it. -/
def comma : (first : Bool) → Bytes
  | true => []
  | false => [byte ',']

section Items

variable {first : Bool} {b : UInt8} {bs rest : Bytes} {item : Bytes → Except Fault (Taken Json)}

theorem nextItem_begins (h : Begins b) : nextItem first (comma first ++ b :: bs) =
    .ok (true, b :: bs) := by
  obtain ⟨hspace, hend⟩ := h
  cases first with
  | true => simp [nextItem, comma, skipSpace_begins hspace, hend]
  | false =>
    have hcomma : isSpace (byte ',') = false := by decide
    have hne : byte ',' ≠ byte ']' := by decide
    simp [nextItem, comma, skipSpace_begins hspace, skipSpace_begins hcomma, hend, hne]

theorem nextKey_quote : nextKey first (comma first ++ byte '"' :: bs) = .ok (true, bs) := by
  cases first <;> rfl

theorem listItems_next {x : Json} {rounds : Nat} {done : List Json} {bs' : Bytes}
    (hnext : nextItem first bs = .ok (true, bs')) (hx : item bs' = .ok (x, rest)) :
    listItems item (rounds + 1) first done bs = listItems item rounds false (x :: done) rest := by
  rw [listItems, bind_of_ok hnext]
  exact bind_of_ok hx _

theorem listItems_end {rounds : Nat} {done : List Json} (h : rounds ≠ 0) :
    listItems item rounds first done (byte ']' :: rest) = .ok (.arr done.reverse, rest) := by
  obtain ⟨rounds, rfl⟩ := Nat.exists_eq_add_one_of_ne_zero h
  exact bind_of_ok rfl _

theorem objectMembers_next {k : String} {v : Json} {rounds : Nat} {done : Members}
    {bs₁ bs₂ bs₃ : Bytes} (hnext : nextKey first bs = .ok (true, bs₁))
    (hkey : string bs₁ = .ok (k, bs₂)) (hcolon : colon bs₂ = .ok ((), bs₃))
    (hv : item bs₃ = .ok (v, rest)) : objectMembers item (rounds + 1) first done bs =
      objectMembers item rounds false (Members.insert k v done) rest := by
  rw [objectMembers, bind_of_ok hnext]
  exact (bind_of_ok hkey _).trans ((bind_of_ok hcolon _).trans (bind_of_ok hv _))

theorem objectMembers_end {rounds : Nat} {done : Members} (h : rounds ≠ 0) :
    objectMembers item rounds first done (byte '\x7d' :: rest) = .ok (.obj done, rest) := by
  obtain ⟨rounds, rfl⟩ := Nat.exists_eq_add_one_of_ne_zero h
  exact bind_of_ok rfl _

/-- The compact text of a value is read as the value in order, whatever may follow it. -/
def ReadsBack (item : Bytes → Except Fault (Taken Json)) (j : Json) : Prop :=
  ∀ rest, Stops rest → item (encodeChars j.chars ++ rest) = .ok (j.sorted, rest)

theorem listItems_item {x : Json} {rounds : Nat} {done : List Json} (hx : x.Exact)
    (hread : ReadsBack item x) (h : Stops rest) :
    listItems item (rounds + 1) first done (comma first ++ (encodeChars x.chars ++ rest)) =
      listItems item rounds false (x.sorted :: done) rest := by
  obtain ⟨b, bs, he, hb⟩ := chars_begin x hx
  have hnext : nextItem first (comma first ++ (encodeChars x.chars ++ rest)) =
      .ok (true, encodeChars x.chars ++ rest) := by
    rw [he]
    exact nextItem_begins hb
  exact listItems_next hnext (hread rest h)

/-- Items separated by commas are read one after the other. -/
theorem listItems_itemChars (x : Json) (items : List Json) {done : List Json} {rounds : Nat}
    (hitem : ∀ y ∈ x :: items, y.Exact ∧ ReadsBack item y) (hrounds : items.length < rounds) :
    listItems item (rounds + 1) first done
        (comma first ++ (encodeChars (itemChars (x :: items)) ++ byte ']' :: rest)) =
      .ok (.arr (done.reverse ++ sortedItems (x :: items)), rest) := by
  obtain ⟨hx, hread⟩ := hitem x List.mem_cons_self
  induction items generalizing x done first rounds with
  | nil =>
    have hstop : Stops (byte ']' :: rest) := stops_cons (by decide)
    rw [itemChars, listItems_item hx hread hstop, listItems_end (by omega), List.reverse_cons]
    rfl
  | cons y items ih =>
    obtain ⟨hy, hread'⟩ := hitem y (List.mem_cons_of_mem _ List.mem_cons_self)
    obtain ⟨rounds, rfl⟩ := Nat.exists_eq_add_one_of_ne_zero (Nat.ne_zero_of_lt hrounds)
    have htext : encodeChars (itemChars (x :: y :: items)) ++ byte ']' :: rest =
        encodeChars x.chars ++
          byte ',' :: (encodeChars (itemChars (y :: items)) ++ byte ']' :: rest) := by
      rw [itemChars, encodeChars_append, List.append_assoc, Text.encodeChars_cons]
      · rfl
      · exact List.cons_ne_nil _ _
    have hstop : Stops (byte ',' :: (encodeChars (itemChars (y :: items)) ++ byte ']' :: rest)) :=
      stops_cons (by decide)
    rw [htext, listItems_item hx hread hstop]
    refine (ih y (fun z hz => hitem z (List.mem_cons_of_mem _ hz))
      (Nat.lt_of_succ_lt_succ hrounds) hy hread').trans ?_
    rw [List.reverse_cons, List.append_assoc]
    rfl

/-- The text of one member, with what follows it. -/
theorem encodeChars_member (k : String) (v : Json) (rest : Bytes) :
    encodeChars (quote k ++ ':' :: v.chars) ++ rest = byte '"' ::
      (encodeChars (escape k.toList) ++ byte '"' :: byte ':' :: (encodeChars v.chars ++ rest)) := by
  rw [encodeChars_append, encodeChars_quote]
  simp [encodeChar_ascii]

/-- The text of several members is the text of the first, a comma and the text of the others. -/
theorem encodeChars_members (m n : String × Json) (members : List (String × Json)) (rest : Bytes) :
    encodeChars (memberChars (m :: n :: members)) ++ rest =
      encodeChars (quote m.1 ++ ':' :: m.2.chars) ++
        byte ',' :: (encodeChars (memberChars (n :: members)) ++ rest) := by
  rw [memberChars]
  · rw [encodeChars_append _ (',' :: _), List.append_assoc, Text.encodeChars_cons]
    rfl
  · exact List.cons_ne_nil _ _

theorem objectMembers_member {k : String} {v : Json} {rounds : Nat} {done : Members}
    (hread : ReadsBack item v) (h : Stops rest) :
    objectMembers item (rounds + 1) first done
        (comma first ++ (encodeChars (quote k ++ ':' :: v.chars) ++ rest)) =
      objectMembers item rounds false (Members.insert k v.sorted done) rest := by
  rw [encodeChars_member]
  exact objectMembers_next nextKey_quote (string_escape k _) rfl (hread rest h)

/-- Members separated by commas are put in one after the other. -/
theorem objectMembers_memberChars (m : String × Json) (members : List (String × Json))
    {done : Members} {rounds : Nat} (hitem : ∀ n ∈ m :: members, ReadsBack item n.2)
    (hrounds : members.length < rounds) :
    objectMembers item (rounds + 1) first done
        (comma first ++ (encodeChars (memberChars (m :: members)) ++ byte '\x7d' :: rest)) =
      .ok (.obj ((sortedMembers (m :: members)).foldl
        (fun sorted n => Members.insert n.1 n.2 sorted) done), rest) := by
  induction members generalizing m done first rounds with
  | nil =>
    have hstop : Stops (byte '\x7d' :: rest) := stops_cons (by decide)
    rw [memberChars, objectMembers_member (hitem m List.mem_cons_self) hstop,
      objectMembers_end (by omega)]
    rfl
  | cons n members ih =>
    obtain ⟨rounds, rfl⟩ := Nat.exists_eq_add_one_of_ne_zero (Nat.ne_zero_of_lt hrounds)
    have hstop :
        Stops (byte ',' :: (encodeChars (memberChars (n :: members)) ++ byte '\x7d' :: rest)) :=
      stops_cons (by decide)
    rw [encodeChars_members, objectMembers_member (hitem m List.mem_cons_self) hstop]
    exact ih n (fun l hl => hitem l (List.mem_cons_of_mem _ hl))
      (Nat.lt_of_succ_lt_succ hrounds)

end Items

/-! ## Values -/

section Values

variable {depth : Nat} {b : UInt8} {bs rest : Bytes}

theorem value_scalar (hspace : isSpace b = false) (hlist : b ≠ byte '[') (hobj : b ≠ byte '\x7b') :
    value depth (b :: bs) = scalar (b :: bs) := by
  cases depth <;> simp [value, skipSpace_begins hspace, hlist, hobj]

theorem value_list : value (depth + 1) (byte '[' :: bs) =
    listItems (value depth) (bs.length + 1) true [] bs := rfl

theorem value_object : value (depth + 1) (byte '\x7b' :: bs) =
    objectMembers (value depth) (bs.length + 1) true [] bs := rfl

theorem encodeChars_object (members : List (String × Json)) (rest : Bytes) :
    encodeChars (chars (.obj members)) ++ rest =
      byte '\x7b' :: (encodeChars (memberChars members) ++ byte '\x7d' :: rest) := by
  rw [chars, encodeChars_append, List.append_assoc]
  rfl

theorem value_number (h : OfNumber b) : value depth (b :: bs) = number (b :: bs) := by
  have hne {d : UInt8} (hd : d ≠ byte '-' ∧ isDigit d = false) : b ≠ d := h.ne hd.1 hd.2
  rw [value_scalar h.isSpace (hne (by decide)) (hne (by decide)), scalar, if_neg (hne (by decide)),
    if_neg (hne (by decide)), if_neg (hne (by decide)), if_neg (hne (by decide))]
  exact if_pos h

theorem value_string (s : String) :
    value depth (encodeChars (quote s) ++ rest) = .ok (.str s, rest) := by
  rw [encodeChars_quote, List.cons_append, List.append_assoc,
    value_scalar (by decide) (by decide) (by decide)]
  exact bind_of_ok (string_escape s rest) _

theorem length_le_itemChars (x : Json) (items : List Json) :
    items.length ≤ (itemChars (x :: items)).length := by
  induction items generalizing x with
  | nil => exact Nat.zero_le _
  | cons y items ih =>
    have := ih y
    simp only [itemChars, List.length_append, List.length_cons] at this ⊢
    omega

theorem length_lt_memberChars (m : String × Json) (members : List (String × Json)) :
    members.length < (memberChars (m :: members)).length := by
  induction members generalizing m with
  | nil =>
    simp only [memberChars, List.length_append, List.length_cons, List.length_nil]
    omega
  | cons n members ih =>
    have := ih n
    simp only [memberChars, List.length_append, List.length_cons] at this ⊢
    omega

/-- There are as many rounds as a text has bytes, which is more than it has characters. -/
theorem length_lt_text {n : Nat} {cs : List Char} (h : n ≤ cs.length) :
    n < (encodeChars cs ++ b :: rest).length := by
  have := length_le_encodeChars cs
  rw [List.length_append, List.length_cons]
  omega

mutual

/-- A value is read back from its compact text, whatever may follow it. -/
theorem value_chars : (j : Json) → j.Exact → {depth : Nat} → j.depth ≤ depth →
    ReadsBack (value depth) j
  | .null, _, _, _, rest, _ => value_scalar (by decide) (by decide) (by decide)
  | .bool true, _, _, _, rest, _ => value_scalar (by decide) (by decide) (by decide)
  | .bool false, _, _, _, rest, _ => value_scalar (by decide) (by decide) (by decide)
  | .int n, hn, depth, _, rest, h => by
    obtain ⟨b, bs, he, hb⟩ := chars_int_begin n
    have hnumber := number_chars hn h
    rw [he] at hnumber ⊢
    exact (value_number hb).trans hnumber
  | .float _, hx, _, _, _, _ => absurd hx id
  | .str s, _, _, _, _, _ => value_string s
  | .arr [], _, depth, hd, rest, _ => by
    obtain ⟨depth, rfl⟩ := Nat.exists_eq_add_one_of_ne_zero (Nat.ne_zero_of_lt hd)
    exact listItems_end (Nat.succ_ne_zero _)
  | .arr (x :: items), hj, depth, hd, rest, _ => by
    rw [Exact, Every] at hj
    rw [Json.depth] at hd
    obtain ⟨depth, rfl⟩ := Nat.exists_eq_add_one_of_ne_zero (Nat.ne_zero_of_lt hd)
    have hitem := value_items (x :: items) hj.2 (Nat.le_of_succ_le_succ hd)
    have htext : encodeChars (chars (.arr (x :: items))) ++ rest =
        byte '[' :: (encodeChars (itemChars (x :: items)) ++ byte ']' :: rest) := by
      rw [chars, encodeChars_append, List.append_assoc]
      rfl
    rw [htext, value_list, sorted]
    exact listItems_itemChars x items hitem (length_lt_text (length_le_itemChars x items))
  | .obj [], _, depth, hd, rest, _ => by
    obtain ⟨depth, rfl⟩ := Nat.exists_eq_add_one_of_ne_zero (Nat.ne_zero_of_lt hd)
    exact objectMembers_end (Nat.succ_ne_zero _)
  | .obj (m :: members), hj, depth, hd, rest, _ => by
    rw [Exact, Every] at hj
    rw [Json.depth] at hd
    obtain ⟨depth, rfl⟩ := Nat.exists_eq_add_one_of_ne_zero (Nat.ne_zero_of_lt hd)
    have hmember := value_members (m :: members) hj.2 (Nat.le_of_succ_le_succ hd)
    rw [encodeChars_object, value_object, sorted]
    exact objectMembers_memberChars m members hmember
      (length_lt_text (Nat.le_of_lt (length_lt_memberChars m members)))

theorem value_items : (items : List Json) → EveryItem Integral items → {depth : Nat} →
    depthItems items ≤ depth → ∀ x ∈ items, x.Exact ∧ ReadsBack (value depth) x
  | [], _, _, _ => List.forall_mem_nil _
  | x :: rest, h, _, hd => by
    rw [EveryItem] at h
    rw [depthItems, Nat.max_le] at hd
    exact List.forall_mem_cons.2 ⟨⟨h.1, value_chars x h.1 hd.1⟩, value_items rest h.2 hd.2⟩

theorem value_members : (members : List (String × Json)) → EveryMember Integral members →
    {depth : Nat} → depthMembers members ≤ depth → ∀ m ∈ members, ReadsBack (value depth) m.2
  | [], _, _, _ => List.forall_mem_nil _
  | (_, v) :: rest, h, _, hd => by
    rw [EveryMember] at h
    rw [depthMembers, Nat.max_le] at hd
    exact List.forall_mem_cons.2 ⟨value_chars v h.1 hd.1, value_members rest h.2 hd.2⟩

end

end Values

end Scan

/-- The compact text of a value is read as the value in order. -/
theorem read_compact {j : Json} (h : j.Exact) (hd : j.depth ≤ maxDepth) :
    read (Text.encode j.compact) = .ok j.sorted := by
  have hv := Scan.value_chars j h hd [] Scan.stops_nil
  rw [List.append_nil] at hv
  rw [read, readWithin, Text.encode, compact, String.toList_ofList]
  exact Scan.bind_of_ok hv _

end EditorBridge.Json
