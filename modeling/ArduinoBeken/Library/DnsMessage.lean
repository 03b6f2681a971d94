import Mathlib.Data.List.Basic
import Mathlib.Tactic.SplitIfs

/-!
# DNS Messages

A message of the domain name system and how it is read from its bytes: a header that counts
the entries of four sections, questions, and records. Nothing here is specific to one
implementation.

A name is a sequence of labels, written one after another and ended by a zero, or by a pointer
to a place where an earlier name, or the rest of one, was written. The reader keeps these
places, so what it accepts is finite, and a pointer into anything else is refused. Bytes behind
the last record are refused as well, so the counts of a message that is read are those of the
sections that are there (`read_counts`).

`walkLength` follows the lengths only and has no idea of labels that are too long, of pointers
or of the end of the name: it is how far a careless reader goes.

## Main definitions

* `Label`, `Name`: A label, and a name with its labels in full.
* `Name.wire`, `Name.text`: The bytes of a name without a pointer, and the name with dots.
* `Flags`, `Question`, `Record`, `Message`: What a message has.
* `Cursor`: The place in a message, and the places of the names so far.
* `Message.read`: The message that bytes are.
* `walkLength`: The bytes of a name when only lengths are followed.

## Theorems

* `readLabels_wire`: A name that is written in full is read back.
* `rest_of_readLabels`: Without an earlier name, a name is written in full.
* `walkLength_wire`: The lengths of a name that is written in full lead to its end.
* `walkLength_end`: Where lengths lead to, there is a zero.
* `read_counts`: The header counts what is there.
* `read_single`: A message of one question and nothing else, byte by byte.
* `read_question`, `read_answer`: The bytes of such a message, and of one with an answer whose
  owner points to the question.
-/

namespace DnsMessage

/-! ### Names -/

/-- A label has a byte, and no more than its length byte can tell. -/
abbrev Label := {bytes : List UInt8 // 0 < bytes.length ∧ bytes.length ≤ 63}

/-- A name, from its first label to its last. -/
abbrev Name := List Label

/-- A label behind its length. -/
def Label.wire (l : Label) : List UInt8 :=
  UInt8.ofNat l.1.length :: l.1

/-- The bytes of a name without a pointer. -/
def Name.wire (n : Name) : List UInt8 :=
  n.flatMap Label.wire ++ [0]

/-- The labels with dots between them. -/
def Name.text (n : Name) : List UInt8 :=
  [46].intercalate (n.map Subtype.val)

@[simp]
theorem wire_nil : Name.wire [] = [0] := rfl

@[simp]
theorem wire_cons (l : Label) (n : Name) : Name.wire (l :: n) = l.wire ++ Name.wire n := by
  rw [Name.wire, Name.wire, List.flatMap_cons, List.append_assoc]

theorem text_singleton (l : Label) : Name.text [l] = l.1 :=
  List.intercalate_singleton

theorem text_cons_cons (l m : Label) (n : Name) :
    Name.text (l :: m :: n) = l.1 ++ [46] ++ Name.text (m :: n) :=
  List.intercalate_cons_cons

theorem length_label_wire (l : Label) : l.wire.length = l.1.length + 1 := by
  rw [Label.wire, List.length_cons]

theorem toNat_label_length (l : Label) : (UInt8.ofNat l.1.length).toNat = l.1.length := by
  have h := l.2.2
  rw [UInt8.toNat_ofNat']
  omega

/-! ### Messages -/

/-- The bits of the second word of a header, with the code of a response. -/
structure Flags where
  qr : Bool
  opcode : Nat
  aa : Bool
  tc : Bool
  rd : Bool
  ra : Bool
  z : Nat
  rcode : Nat
deriving DecidableEq, Repr

/-- A question, with the numbers of its type and class. -/
structure Question where
  name : Name
  kind : Nat
  cls : Nat
deriving DecidableEq, Repr

/-- The names in the data are not resolved. -/
structure Record where
  name : Name
  kind : Nat
  cls : Nat
  ttl : Nat
  data : List UInt8
deriving DecidableEq, Repr

/-- A message with its four sections. -/
structure Message where
  id : Nat
  flags : Flags
  questions : List Question
  answers : List Record
  authority : List Record
  additional : List Record
deriving DecidableEq, Repr

/-! ### Reading -/

/-- Two bytes, the most significant first. -/
def word (hi lo : UInt8) : Nat :=
  256 * hi.toNat + lo.toNat

/-- The bits in the two bytes of the word. -/
def Flags.read (hi lo : UInt8) : Flags where
  qr := hi.toNat / 128 == 1
  opcode := hi.toNat / 8 % 16
  aa := hi.toNat / 4 % 2 == 1
  tc := hi.toNat / 2 % 2 == 1
  rd := hi.toNat % 2 == 1
  ra := lo.toNat / 128 == 1
  z := lo.toNat / 16 % 8
  rcode := lo.toNat % 16

/-- How far a message has been read. -/
structure Cursor where
  pos : Nat
  rest : List UInt8
  /-- Where the names so far were written, and what follows in each. -/
  places : List (Nat × Name)
deriving DecidableEq, Repr

/-- A name, with the places a pointer may have as its target. -/
def readLabels (known : List (Nat × Name)) : Cursor → Option (Name × Cursor)
  | ⟨_, [], _⟩ => none
  | ⟨pos, len :: rest, places⟩ =>
    if hzero : len = 0 then some ([], ⟨pos + 1, rest, (pos, []) :: places⟩)
    -- a label, and what follows it
    else if hlen : len.toNat ≤ 63 ∧ len.toNat ≤ rest.length then
      match readLabels known ⟨pos + 1 + len.toNat, rest.drop len.toNat, places⟩ with
      | none => none
      | some (name, c) =>
        have hpos : 0 < len.toNat := Nat.pos_of_ne_zero fun h => hzero (UInt8.toNat_inj.1 h)
        let name := ⟨rest.take len.toNat, by rw [List.length_take]; omega⟩ :: name
        some (name, { c with places := (pos, name) :: c.places })
    -- a pointer, whose two top bits are 49152 in a word
    else if 192 ≤ len.toNat then
      match rest with
      | [] => none
      | lo :: rest =>
        (known.lookup (word len lo - 49152)).map fun name =>
          (name, ⟨pos + 2, rest, (pos, name) :: places⟩)
    else none
termination_by c => c.rest.length
decreasing_by
  simp only [List.length_drop, List.length_cons]
  omega

namespace Cursor

/-- Two bytes, the high one first. -/
def word : Cursor → Option (Nat × Cursor)
  | ⟨pos, hi :: lo :: rest, places⟩ => some (DnsMessage.word hi lo, ⟨pos + 2, rest, places⟩)
  | _ => none

/-- So many bytes, if there are so many. -/
def bytes (c : Cursor) (count : Nat) : Option (List UInt8 × Cursor) :=
  if count ≤ c.rest.length then
    some (c.rest.take count, ⟨c.pos + count, c.rest.drop count, c.places⟩)
  else none

/-- A name is at most 255 bytes long in full. -/
def name (c : Cursor) : Option (Name × Cursor) := do
  let (n, c) ← readLabels c.places c
  if (Name.wire n).length ≤ 255 then some (n, c) else none

/-- So many names, one after the other. -/
def names : Nat → Cursor → Option Cursor
  | 0, c => some c
  | n + 1, c => do
    let (_, c) ← c.name
    names n c

end Cursor

/-- The kinds of data in which names may be pointers and targets: the bytes in front of the
    names, and how many names there are. -/
def dataNames : Nat → Nat × Nat
  | 2 | 3 | 4 | 5 | 7 | 8 | 9 | 12 => (0, 1)
  | 6 | 14 => (0, 2)
  | 15 => (2, 1)
  | _ => (0, 0)

/-- Length and data of a record. -/
def readData (kind : Nat) (c : Cursor) : Option (List UInt8 × Cursor) := do
  let (count, c) ← c.word
  let (data, after) ← c.bytes count
  -- names in the data may be targets, but only those inside it
  let (_, inner) ← { c with rest := data }.bytes (dataNames kind).1
  let inner ← inner.names (dataNames kind).2
  some (data, { after with places := inner.places })

/-- A name, a type and a class. -/
def readQuestion (c : Cursor) : Option (Question × Cursor) := do
  let (name, c) ← c.name
  let (kind, c) ← c.word
  let (cls, c) ← c.word
  some (⟨name, kind, cls⟩, c)

/-- A name, a type, a class, a time to live, and data of the length they tell. -/
def readRecord (c : Cursor) : Option (Record × Cursor) := do
  let (name, c) ← c.name
  let (kind, c) ← c.word
  let (cls, c) ← c.word
  let (high, c) ← c.word
  let (low, c) ← c.word
  let (data, c) ← readData kind c
  some (⟨name, kind, cls, 65536 * high + low, data⟩, c)

/-- So many entries of a section. -/
def readMany {α : Type} (f : Cursor → Option (α × Cursor)) : Nat → Cursor → Option (List α × Cursor)
  | 0, c => some ([], c)
  | n + 1, c => do
    let (a, c) ← f c
    let (as, c) ← readMany f n c
    some (a :: as, c)

/-- The message that the bytes are, to the last one. -/
def Message.read : List UInt8 → Option Message
  | i1 :: i0 :: f1 :: f0 :: qd1 :: qd0 :: an1 :: an0 :: ns1 :: ns0 :: ar1 :: ar0 :: rest => do
    let (questions, c) ← readMany readQuestion (word qd1 qd0) ⟨12, rest, []⟩
    let (answers, c) ← readMany readRecord (word an1 an0) c
    let (authority, c) ← readMany readRecord (word ns1 ns0) c
    let (additional, c) ← readMany readRecord (word ar1 ar0) c
    if c.rest = [] then
      some ⟨word i1 i0, Flags.read f1 f0, questions, answers, authority, additional⟩
    else none
  | _ => none

/-- The bytes of a name when only lengths are followed. -/
def walkLength : List UInt8 → Option Nat
  | [] => none
  | len :: rest =>
    if len = 0 then some 1
    else (walkLength (rest.drop len.toNat)).map (· + (len.toNat + 1))
termination_by bytes => bytes.length
decreasing_by
  rw [List.length_drop, List.length_cons]
  omega

/-! ### Names that are written in full -/

/-- The places of a name that is written in full. -/
def wirePlaces : Nat → Name → List (Nat × Name)
  | pos, [] => [(pos, [])]
  | pos, l :: n => (pos, l :: n) :: wirePlaces (pos + l.wire.length) n

theorem lookup_wirePlaces (pos : Nat) (n : Name) (places : List (Nat × Name)) :
    (wirePlaces pos n ++ places).lookup pos = some n := by
  cases n with
  | nil => rw [wirePlaces, List.singleton_append, List.lookup_cons_self]
  | cons l n => rw [wirePlaces, List.cons_append, List.lookup_cons_self]

theorem label_length_ne_zero (l : Label) : UInt8.ofNat l.1.length ≠ 0 := by
  intro h
  have hpos := l.2.1
  rw [← toNat_label_length l, h] at hpos
  exact absurd hpos (by decide)

/-- A name that is written in full is read back, whatever names are known. -/
theorem readLabels_wire (known : List (Nat × Name)) (n : Name) (pos : Nat) (rest : List UInt8)
    (places : List (Nat × Name)) :
    readLabels known ⟨pos, n.wire ++ rest, places⟩ =
      some (n, ⟨pos + n.wire.length, rest, wirePlaces pos n ++ places⟩) := by
  -- induction on the labels of the name
  induction n generalizing pos with
  | nil =>
      rw [wire_nil, List.singleton_append, readLabels, dif_pos rfl, wirePlaces]
      rfl
  | cons l n ih =>
      have hlen := toNat_label_length l
      have hshort := l.2.2
      have hdrop : (l.1 ++ (Name.wire n ++ rest)).drop l.1.length = Name.wire n ++ rest :=
        List.drop_left
      have htake : (l.1 ++ (Name.wire n ++ rest)).take l.1.length = l.1 := List.take_left
      rw [wire_cons, List.append_assoc, Label.wire, List.cons_append, readLabels,
        dif_neg (label_length_ne_zero l), dif_pos (by rw [hlen, List.length_append]; omega)]
      have hnext : pos + 1 + l.1.length = pos + (l.1.length + 1) := by omega
      have hend : pos + (UInt8.ofNat l.1.length :: (l.1 ++ Name.wire n)).length =
          pos + (l.1.length + 1) + (Name.wire n).length := by
        rw [List.length_cons, List.length_append]
        omega
      simp only [hlen, hdrop, htake, ih, wirePlaces, List.cons_append, length_label_wire, hend,
        hnext]

/-- Without an earlier name there is no pointer, so a name is written in full. -/
theorem rest_of_readLabels (c c' : Cursor) (n : Name) (h : readLabels [] c = some (n, c')) :
    c.rest = n.wire ++ c'.rest := by
  obtain ⟨pos, bytes, places⟩ := c
  -- on the bytes that are left, as the reader goes on behind each label
  induction hsize : bytes.length using Nat.strongRecOn generalizing bytes pos n c' with
  | ind size ih =>
      cases bytes with
      | nil =>
          rw [readLabels] at h
          cases h
      | cons len rest =>
          rw [readLabels] at h
          split_ifs at h with hzero hlen hptr
          · cases h
            rw [hzero, wire_nil, List.singleton_append]
          · cases htail : readLabels [] ⟨pos + 1 + len.toNat, rest.drop len.toNat, places⟩ with
            | none =>
                simp only [htail] at h
                cases h
            | some r =>
                obtain ⟨tail, d⟩ := r
                simp only [htail] at h
                cases h
                have hless : (rest.drop len.toNat).length < size := by
                  rw [List.length_drop, ← hsize, List.length_cons]
                  omega
                have hrest := ih _ hless _ _ _ _ htail rfl
                have hmin : min len.toNat rest.length = len.toNat := Nat.min_eq_left hlen.2
                rw [wire_cons, Label.wire]
                simp only [List.length_take, hmin, UInt8.ofNat_toNat, List.cons_append,
                  List.append_assoc]
                rw [← hrest, List.take_append_drop]
          · -- a pointer has no earlier name as its target
            cases rest with
            | nil => cases h
            | cons lo rest => cases h

theorem walkLength_wire (n : Name) (rest : List UInt8) :
    walkLength (n.wire ++ rest) = some n.wire.length := by
  induction n with
  | nil =>
      rw [wire_nil, List.singleton_append, walkLength, if_pos rfl]
      rfl
  | cons l n ih =>
      have hdrop : (l.1 ++ (Name.wire n ++ rest)).drop l.1.length = Name.wire n ++ rest :=
        List.drop_left
      rw [wire_cons, List.append_assoc, Label.wire, List.cons_append, walkLength,
        if_neg (label_length_ne_zero l), toNat_label_length, hdrop, ih, Option.map_some,
        List.length_append, List.length_cons, Nat.add_comm]

/-- One length is followed. -/
theorem walkLength_drop (bytes : List UInt8) (p : Nat) (len : UInt8) (h : bytes[p]? = some len) :
    walkLength (bytes.drop p) =
      if len = 0 then some 1
      else (walkLength (bytes.drop (p + (len.toNat + 1)))).map (· + (len.toNat + 1)) := by
  obtain ⟨hp, hlen⟩ := List.getElem?_eq_some_iff.1 h
  rw [List.drop_eq_getElem_cons hp, hlen, walkLength, List.drop_drop]
  rw [Nat.add_right_comm p 1, Nat.add_assoc]

theorem walkLength_drop_none (bytes : List UInt8) (p : Nat) (h : bytes[p]? = none) :
    walkLength (bytes.drop p) = none := by
  rw [List.drop_eq_nil_of_le (List.getElem?_eq_none_iff.1 h), walkLength]

/-- The lengths lead to a zero in the bytes. -/
theorem walkLength_end (bytes : List UInt8) (p n : Nat) (h : walkLength (bytes.drop p) = some n) :
    0 < n ∧ bytes[p + n - 1]? = some 0 := by
  -- on the bytes behind the place
  induction hsize : bytes.length - p using Nat.strongRecOn generalizing p n with
  | ind size ih =>
      cases hp : bytes[p]? with
      | none =>
          rw [walkLength_drop_none bytes p hp] at h
          cases h
      | some len =>
          have hlt := (List.getElem?_eq_some_iff.1 hp).1
          rw [walkLength_drop bytes p len hp] at h
          split_ifs at h with hzero
          · cases h
            rw [Nat.add_sub_cancel, hp, hzero]
            exact ⟨Nat.one_pos, rfl⟩
          · obtain ⟨m, hm, rfl⟩ := Option.map_eq_some_iff.1 h
            obtain ⟨hpos, hend⟩ := ih _ (by omega) _ _ hm rfl
            refine ⟨by omega, ?_⟩
            rw [show p + (m + (len.toNat + 1)) - 1 = p + (len.toNat + 1) + m - 1 by omega]
            exact hend

theorem walkLength_le (bytes : List UInt8) (p n : Nat) (h : walkLength (bytes.drop p) = some n) :
    p + n ≤ bytes.length := by
  obtain ⟨hpos, hend⟩ := walkLength_end bytes p n h
  have := (List.getElem?_eq_some_iff.1 hend).1
  omega

/-! ### Messages and their bytes -/

theorem readMany_zero {α : Type} (f : Cursor → Option (α × Cursor)) (c : Cursor) :
    readMany f 0 c = some ([], c) := rfl

theorem readMany_length {α : Type} (f : Cursor → Option (α × Cursor)) (count : Nat)
    (c c' : Cursor) (as : List α) (h : readMany f count c = some (as, c')) :
    as.length = count := by
  induction count generalizing c as with
  | zero =>
      cases h
      rfl
  | succ count ih =>
      simp only [readMany, bind, Option.bind_eq_some_iff, Prod.exists] at h
      obtain ⟨a, d, -, rest, e, hrest, heq⟩ := h
      cases heq
      rw [List.length_cons, ih _ _ hrest]

/-- Nothing is left of a message that is read, and its header counts what is there. -/
theorem read_counts (bytes : List UInt8) (m : Message) (h : Message.read bytes = some m) :
    ∃ i1 i0 f1 f0 qd1 qd0 an1 an0 ns1 ns0 ar1 ar0 rest,
      bytes = i1 :: i0 :: f1 :: f0 :: qd1 :: qd0 :: an1 :: an0 :: ns1 :: ns0 :: ar1 :: ar0 :: rest ∧
      m.id = word i1 i0 ∧ m.flags = Flags.read f1 f0 ∧
      m.questions.length = word qd1 qd0 ∧ m.answers.length = word an1 an0 ∧
      m.authority.length = word ns1 ns0 ∧ m.additional.length = word ar1 ar0 := by
  unfold Message.read at h
  split at h
  · next i1 i0 f1 f0 qd1 qd0 an1 an0 ns1 ns0 ar1 ar0 rest =>
      simp only [bind, Option.bind_eq_some_iff, Prod.exists] at h
      obtain ⟨qs, c1, hq, as, c2, ha, au, c3, hau, ad, c4, had, heq⟩ := h
      split_ifs at heq
      cases heq
      exact ⟨i1, i0, f1, f0, qd1, qd0, an1, an0, ns1, ns0, ar1, ar0, rest, rfl, rfl, rfl,
        readMany_length _ _ _ _ _ hq, readMany_length _ _ _ _ _ ha,
        readMany_length _ _ _ _ _ hau, readMany_length _ _ _ _ _ had⟩
  · cases h

theorem word_eq_zero (hi lo : UInt8) (h : word hi lo = 0) : hi = 0 ∧ lo = 0 := by
  rw [word] at h
  exact ⟨UInt8.toNat_inj.1 (by change hi.toNat = 0; omega),
    UInt8.toNat_inj.1 (by change lo.toNat = 0; omega)⟩

theorem word_eq_one (hi lo : UInt8) (h : word hi lo = 1) : hi = 0 ∧ lo = 1 := by
  rw [word] at h
  exact ⟨UInt8.toNat_inj.1 (by change hi.toNat = 0; omega),
    UInt8.toNat_inj.1 (by change lo.toNat = 1; omega)⟩

/-- A first question is a name in full and two words. -/
theorem rest_of_readQuestion (c c' : Cursor) (q : Question) (hplaces : c.places = [])
    (h : readQuestion c = some (q, c')) :
    q.name.wire.length ≤ 255 ∧ ∃ t1 t0 s1 s0, q.kind = word t1 t0 ∧ q.cls = word s1 s0 ∧
      c.rest = q.name.wire ++ t1 :: t0 :: s1 :: s0 :: c'.rest := by
  simp only [readQuestion, Cursor.name, bind, Option.bind_eq_some_iff, Prod.exists, hplaces] at h
  obtain ⟨name, c1, ⟨name', d, hread, hif⟩, kind, c2, hkind, cls, c3, hcls, heq⟩ := h
  split_ifs at hif with hlen
  cases hif
  cases heq
  have hrest := rest_of_readLabels _ _ _ hread
  obtain ⟨p1, r1, l1⟩ := c1
  -- two words behind the name
  unfold Cursor.word at hkind
  split at hkind
  · next _ t1 t0 r2 _ heq =>
      cases heq
      cases hkind
      unfold Cursor.word at hcls
      split at hcls
      · next _ s1 s0 r3 _ heq =>
          cases heq
          cases hcls
          exact ⟨hlen, t1, t0, s1, s0, rfl, rfl, hrest⟩
      · cases hcls
  · cases hkind

/-- A message of one question and nothing else, byte by byte. -/
theorem read_single (i1 i0 f1 f0 : UInt8) (rest : List UInt8) (m : Message)
    (h : Message.read (i1 :: i0 :: f1 :: f0 :: 0 :: 1 :: 0 :: 0 :: 0 :: 0 :: 0 :: 0 :: rest) =
      some m) :
    ∃ q t1 t0 s1 s0, m.questions = [q] ∧ q.name.wire.length ≤ 255 ∧
      q.kind = word t1 t0 ∧ q.cls = word s1 s0 ∧
      rest = q.name.wire ++ [t1, t0, s1, s0] := by
  have hone : word 0 1 = 1 := rfl
  have hzero : word 0 0 = 0 := rfl
  simp only [Message.read, hone, hzero, readMany, bind, Option.bind_eq_some_iff, Prod.exists] at h
  obtain ⟨qs, c1, ⟨q, c2, hq, qs', c3, hnil, hqs⟩, as, c4, ha, au, c5, hau, ad, c6, had, heq⟩ := h
  cases hnil
  cases hqs
  cases ha
  cases hau
  cases had
  split_ifs at heq with hend
  cases heq
  obtain ⟨hlen, t1, t0, s1, s0, hkind, hcls, hrest⟩ := rest_of_readQuestion _ _ _ rfl hq
  -- nothing is left, so the question is all there is
  rw [hend] at hrest
  exact ⟨q, t1, t0, s1, s0, rfl, hlen, hkind, hcls, hrest⟩

/-- A header alone is a message just when it counts nothing. -/
theorem read_bare (i1 i0 f1 f0 an1 an0 ns1 ns0 ar1 ar0 : UInt8) :
    Message.read [i1, i0, f1, f0, 0, 0, an1, an0, ns1, ns0, ar1, ar0] =
      if word an1 an0 = 0 ∧ word ns1 ns0 = 0 ∧ word ar1 ar0 = 0 then
        some ⟨word i1 i0, Flags.read f1 f0, [], [], [], []⟩
      else none := by
  have hrecord : ∀ n, readMany readRecord (n + 1) ⟨12, [], []⟩ = none := by
    intro n
    simp only [readMany, readRecord, Cursor.name, readLabels, bind, Option.bind_none]
  have hzero : word 0 0 = 0 := rfl
  rw [Message.read, hzero]
  simp only [readMany_zero, bind, Option.bind_some]
  generalize word an1 an0 = an
  generalize word ns1 ns0 = ns
  generalize word ar1 ar0 = ar
  -- the first section that is counted has no record to read
  cases an with
  | succ n => rw [hrecord, if_neg (by omega), Option.bind_none]
  | zero =>
      cases ns with
      | succ n =>
          simp only [readMany_zero, Option.bind_some]
          rw [hrecord, if_neg (by omega), Option.bind_none]
      | zero =>
          cases ar with
          | succ n =>
              simp only [readMany_zero, Option.bind_some]
              rw [hrecord, if_neg (by omega), Option.bind_none]
          | zero => rfl

/-- A question as the first entry. -/
theorem read_question (n : Name) (t1 t0 s1 s0 : UInt8) (pos : Nat) (rest : List UInt8)
    (hlen : n.wire.length ≤ 255) :
    readQuestion ⟨pos, n.wire ++ t1 :: t0 :: s1 :: s0 :: rest, []⟩ =
      some (⟨n, word t1 t0, word s1 s0⟩,
        ⟨pos + n.wire.length + 2 + 2, rest, wirePlaces pos n ++ []⟩) := by
  simp only [readQuestion, Cursor.name, readLabels_wire, bind, Option.bind_some, if_pos hlen,
    Cursor.word]

/-- A pointer to the first name. -/
theorem read_pointer (n : Name) (pos place : Nat) (lo : UInt8) (rest : List UInt8)
    (hlen : n.wire.length ≤ 255) (hlo : lo.toNat = place) :
    Cursor.name ⟨pos, 192 :: lo :: rest, wirePlaces place n ++ []⟩ =
      some (n, ⟨pos + 2, rest, (pos, n) :: (wirePlaces place n ++ [])⟩) := by
  have hzero : (192 : UInt8) ≠ 0 := by decide
  have hlong : (192 : UInt8).toNat = 192 := rfl
  have htarget : word 192 lo - 49152 = place := by
    rw [word, hlong, hlo]
    omega
  have hnolabel : ¬ ((192 : UInt8).toNat ≤ 63 ∧ (192 : UInt8).toNat ≤ (lo :: rest).length) :=
    fun h => absurd h.1 (by decide)
  have hpointer : 192 ≤ (192 : UInt8).toNat := Nat.le_of_eq hlong.symm
  rw [Cursor.name, readLabels, dif_neg hzero, dif_neg hnolabel, if_pos hpointer]
  simp only [htarget, lookup_wirePlaces, Option.map_some, bind, Option.bind_some, if_pos hlen]

/-- A message of a question and a record whose owner is a pointer to it. -/
theorem read_answer (i1 i0 f1 f0 t1 t0 s1 s0 k1 k0 d1 d0 a b c d l1 l0 : UInt8) (n : Name)
    (data : List UInt8) (hlen : n.wire.length ≤ 255) (hkind : dataNames (word k1 k0) = (0, 0))
    (hdata : word l1 l0 = data.length) :
    Message.read (i1 :: i0 :: f1 :: f0 :: 0 :: 1 :: 0 :: 1 :: 0 :: 0 :: 0 :: 0 ::
        (n.wire ++ t1 :: t0 :: s1 :: s0 ::
          192 :: 12 :: k1 :: k0 :: d1 :: d0 :: a :: b :: c :: d :: l1 :: l0 :: data)) =
      some {
        id := word i1 i0, flags := Flags.read f1 f0
        questions := [⟨n, word t1 t0, word s1 s0⟩]
        answers := [⟨n, word k1 k0, word d1 d0, 65536 * word a b + word c d, data⟩]
        authority := [], additional := [] } := by
  have hone : word 0 1 = 1 := rfl
  have hzero : word 0 0 = 0 := rfl
  have hdrop : data.drop data.length = [] := List.drop_length
  have htwelve : (12 : UInt8).toNat = 12 := rfl
  simp only [Message.read, hone, hzero, readMany, bind, Option.bind_some,
    read_question _ _ _ _ _ _ _ hlen, readRecord, read_pointer n _ 12 12 _ hlen htwelve,
    Cursor.word, readData, Cursor.bytes, hdata, Nat.le_refl, if_true, List.take_length, hdrop,
    hkind, Cursor.names, Nat.zero_le]

end DnsMessage
