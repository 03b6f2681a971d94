import ArduinoBeken.Dns.Server
import ArduinoBeken.Library.DnsMessage
import ArduinoBeken.Library.Stages

/-!
# The Scans over a Question

Both scans follow the lengths of the labels with an index of their own. The first one copies
what it passes, so it comes to an end without a fault exactly when the lengths lead to a zero
inside the packet, the bytes up to there fit the buffer of 256, and two numbers follow
(`copyQuestion_iff`). The second scan reads nothing that the first one has not read
(`parsedLabels_ok`).

## Theorems

* `copyLabels_cases`: One round of the first scan.
* `copyLabels_ok`, `copyLabels_result`: When its loop ends, and with what.
* `copyQuestion_iff`: When the first scan ends, and with what.
* `parsedLabels_ok`: The second scan ends.
* `parsedLabels_name`: What it reads of a name.
-/

namespace ArduinoBeken

namespace Dns

open CheckedBytes (Block load byte store)
open DnsMessage (Name walkLength)

/-- One round of the first scan. -/
theorem copyLabels_cases (buffer : List UInt8) (q q' : DNSQuestion) :
    copyLabels buffer q = .ok q' ↔
      (buffer[12 + q.QNameLength]? = some 0 ∧ q' = q) ∨
      ∃ len : UInt8, buffer[12 + q.QNameLength]? = some len ∧ len ≠ 0 ∧
        12 + q.QNameLength + (len.toNat + 1) ≤ buffer.length ∧
        ∃ QName, store q.QName q.QNameLength
            ((buffer.drop (12 + q.QNameLength)).take (len.toNat + 1)) = .ok QName ∧
          q.QNameLength + (len.toNat + 1) ≤ 256 ∧
          copyLabels buffer
            { q with QName := QName, QNameLength := q.QNameLength + (len.toNat + 1) } = .ok q' := by
  -- inside the buffer the `uint16_t` does not wrap around
  have hwide : ∀ n ≤ 256, n % 2 ^ 16 = n := by
    intro n hn
    exact Nat.mod_eq_of_lt (Nat.lt_of_le_of_lt hn (by decide))
  constructor
  · intro h
    -- the length byte, the label and the room, as the source reads them
    rw [copyLabels] at h
    split at h
    · cases h
    next len hbyte =>
      have hget := (CheckedBytes.byte_eq_ok _ _ _).1 hbyte
      split_ifs at h with hzero
      · cases h
        rw [hzero] at hget
        exact Or.inl ⟨hget, rfl⟩
      · split at h
        · cases h
        next label hload =>
          obtain ⟨hfit, hlabel⟩ := (CheckedBytes.load_eq_ok _ _ _ _).1 hload
          split at h
          · cases h
          next QName hstore =>
            have hroom := ((CheckedBytes.store_eq_ok _ _ _ _).1 hstore).1
            rw [label.2] at hroom
            rw [hwide _ hroom] at h
            rw [hlabel] at hstore
            exact Or.inr ⟨len, hget, hzero, hfit, QName, hstore, hroom, h⟩
  -- the same three accesses, taken together
  · rintro (⟨hget, hsame⟩ | ⟨len, hget, hzero, hfit, QName, hstore, hroom, h⟩)
    · have hbyte : byte buffer (DNS_HEADER_SIZE + q.QNameLength) = .ok 0 :=
        (CheckedBytes.byte_eq_ok _ _ _).2 hget
      rw [copyLabels, hsame]
      simp only [hbyte, if_true]
    · have hbyte : byte buffer (DNS_HEADER_SIZE + q.QNameLength) = .ok len :=
        (CheckedBytes.byte_eq_ok _ _ _).2 hget
      obtain ⟨label, hload, hlabel⟩ := CheckedBytes.exists_load buffer
        (DNS_HEADER_SIZE + q.QNameLength) (len.toNat + 1) hfit
      have hcopy : store q.QName q.QNameLength label.1 = .ok QName := by
        rw [hlabel]
        exact hstore
      rw [copyLabels]
      simp only [hbyte, if_neg hzero, hload]
      split
      · next f hf =>
          rw [hcopy] at hf
          cases hf
      · next QName' hok =>
          rw [hcopy] at hok
          cases hok
          rw [hwide _ hroom]
          exact h

/-- The loop of the first scan ends where the lengths lead to a zero, if the bytes up to there
    fit the buffer. -/
theorem copyLabels_ok (buffer : List UInt8) (q : DNSQuestion) (n : Nat)
    (hwalk : walkLength (buffer.drop (12 + q.QNameLength)) = some n)
    (hroom : q.QNameLength + n ≤ 257) : ∃ q', copyLabels buffer q = .ok q' := by
  -- on the bytes up to the zero; the zero itself is stored behind the loop
  induction n using Nat.strongRecOn generalizing q with
  | ind n ih =>
      cases hget : buffer[12 + q.QNameLength]? with
      | none =>
          rw [DnsMessage.walkLength_drop_none _ _ hget] at hwalk
          cases hwalk
      | some len =>
          have hle := DnsMessage.walkLength_le _ _ _ hwalk
          rw [DnsMessage.walkLength_drop _ _ _ hget] at hwalk
          split_ifs at hwalk with hzero
          · rw [hzero] at hget
            exact ⟨q, (copyLabels_cases buffer q q).2 (Or.inl ⟨hget, rfl⟩)⟩
          · obtain ⟨m, hm, rfl⟩ := Option.map_eq_some_iff.1 hwalk
            have hpos := (DnsMessage.walkLength_end _ _ _ hm).1
            have hlen : ((buffer.drop (12 + q.QNameLength)).take (len.toNat + 1)).length =
                len.toNat + 1 := by
              rw [List.length_take, List.length_drop]
              omega
            obtain ⟨QName, hstore⟩ := CheckedBytes.exists_store q.QName q.QNameLength
              ((buffer.drop (12 + q.QNameLength)).take (len.toNat + 1)) (by rw [hlen]; omega)
            obtain ⟨q', hq'⟩ := ih m (by omega)
              { q with QName := QName, QNameLength := q.QNameLength + (len.toNat + 1) }
              (by rw [← Nat.add_assoc]; exact hm) (by simp only; omega)
            exact ⟨q', (copyLabels_cases buffer q q').2
              (Or.inr ⟨len, hget, hzero, by omega, QName, hstore, by omega, hq'⟩)⟩

/-- What the loop of the first scan has copied when it ends. -/
theorem copyLabels_result (buffer : List UInt8) (q q' : DNSQuestion) (hq : q.QNameLength ≤ 256)
    (h : copyLabels buffer q = .ok q') :
    ∃ n, walkLength (buffer.drop (12 + q.QNameLength)) = some (n + 1) ∧
      q'.QNameLength = q.QNameLength + n ∧ q'.QNameLength ≤ 256 ∧
      q'.QName.1.take q'.QNameLength =
        q.QName.1.take q.QNameLength ++ (buffer.drop (12 + q.QNameLength)).take n := by
  -- on the room that is left, which every round makes smaller
  induction hsize : 256 - q.QNameLength using Nat.strongRecOn generalizing q with
  | ind size ih =>
      rcases (copyLabels_cases buffer q q').1 h with
        ⟨hget, rfl⟩ | ⟨len, hget, hzero, hfit, QName, hstore, hroom, hrest⟩
      · refine ⟨0, ?_, rfl, hq, ?_⟩
        · rw [DnsMessage.walkLength_drop _ _ _ hget, if_pos rfl]
        · rw [List.take_zero, List.append_nil]
      · -- what the other rounds copy stands behind this label
        obtain ⟨n, hwalk, hlen, hle, htake⟩ := ih _ (by simp only; omega)
          { q with QName := QName, QNameLength := q.QNameLength + (len.toNat + 1) } hroom hrest rfl
        have hcopied : ((buffer.drop (12 + q.QNameLength)).take (len.toNat + 1)).length =
            len.toNat + 1 := by
          rw [List.length_take, List.length_drop]
          omega
        have hkept := CheckedBytes.take_store q.QName QName q.QNameLength _ hstore
        rw [hcopied] at hkept
        have hnext : 12 + (q.QNameLength + (len.toNat + 1)) =
            12 + q.QNameLength + (len.toNat + 1) := (Nat.add_assoc _ _ _).symm
        simp only [hnext] at hwalk hlen hle htake
        refine ⟨len.toNat + 1 + n, ?_, ?_, hle, ?_⟩
        · rw [DnsMessage.walkLength_drop _ _ _ hget, if_neg hzero, hwalk, Option.map_some]
          congr 1
          omega
        · omega
        · have hsplit := List.take_add (l := buffer.drop (12 + q.QNameLength))
            (i := len.toNat + 1) (j := n)
          rw [htake, hkept, hsplit, List.append_assoc, List.drop_drop]

/-- What the first scan has taken from the packet when it ends. -/
theorem copyQuestion_result (buffer : List UInt8) (q q' : DNSQuestion)
    (h : copyQuestion buffer q = .ok q') :
    ∃ n, walkLength (buffer.drop 12) = some n ∧ n ≤ 256 ∧ 12 + n + 4 ≤ buffer.length ∧
      q'.QNameLength = n ∧ q'.QName.1.take n = (buffer.drop 12).take n ∧
      q'.QType.1 = (buffer.drop (12 + n)).take 2 ∧
      q'.QClass.1 = (buffer.drop (12 + n + 2)).take 2 := by
  simp only [copyQuestion, Stages.bind_eq_ok] at h
  obtain ⟨q1, hlabels, QName, hzero, QType, htype, QClass, hclass, heq⟩ := h
  cases heq
  obtain ⟨n, hwalk, hlen, -, htake⟩ := copyLabels_result buffer _ q1 (Nat.zero_le 256) hlabels
  simp only [Nat.zero_add, List.take_zero, List.nil_append] at hlen htake
  simp only [Nat.add_zero] at hwalk htake
  -- the zero needs a byte of its own, so the length with it is at most 256
  have hroom := ((CheckedBytes.store_eq_ok _ _ _ _).1 hzero).1
  have hname := CheckedBytes.take_store _ _ _ _ hzero
  rw [hlen, List.length_singleton] at hroom hname
  have hwide : (q1.QNameLength + 1) % 2 ^ 16 = n + 1 := by
    rw [hlen]
    exact Nat.mod_eq_of_lt (Nat.lt_of_le_of_lt hroom (by decide))
  rw [hwide] at htype hclass
  obtain ⟨-, htype⟩ := (CheckedBytes.load_eq_ok _ _ _ _).1 htype
  obtain ⟨hfit, hclass⟩ := (CheckedBytes.load_eq_ok _ _ _ _).1 hclass
  have hend := (DnsMessage.walkLength_end _ _ _ hwalk).2
  refine ⟨n + 1, hwalk, hroom, hfit, hwide, ?_, htype, hclass⟩
  -- the zero that the code writes is the one that it has found
  have hlast : (buffer.drop 12)[n]? = some 0 := by
    rw [List.getElem?_drop]
    exact hend
  rw [hname, ← hlen, htake, hlen, List.take_add_one, hlast]
  rfl

/-- The first scan ends just when the lengths lead to a zero, there is room for what they pass,
    and the packet has two numbers behind it. -/
theorem copyQuestion_iff (buffer : List UInt8) (q : DNSQuestion) :
    (∃ q', copyQuestion buffer q = .ok q') ↔
      ∃ n, walkLength (buffer.drop 12) = some n ∧ n ≤ 256 ∧ 12 + n + 4 ≤ buffer.length := by
  constructor
  · rintro ⟨q', h⟩
    obtain ⟨n, hwalk, hroom, hfit, -⟩ := copyQuestion_result buffer q q' h
    exact ⟨n, hwalk, hroom, hfit⟩
  · rintro ⟨n, hwalk, hroom, hfit⟩
    obtain ⟨q1, hlabels⟩ := copyLabels_ok buffer { q with QNameLength := 0 } n hwalk
      (by simp only; omega)
    obtain ⟨m, hwalk', hlen, -, -⟩ := copyLabels_result buffer _ q1 (Nat.zero_le 256) hlabels
    simp only [Nat.add_zero, Nat.zero_add] at hwalk' hlen
    rw [hwalk, Option.some.injEq] at hwalk'
    -- the zero, and then type and class behind it
    obtain ⟨QName, hzero⟩ := CheckedBytes.exists_store q1.QName q1.QNameLength [0]
      (by rw [List.length_singleton]; omega)
    have hwide : (q1.QNameLength + 1) % 2 ^ 16 = n := by
      rw [hlen, ← hwalk']
      exact Nat.mod_eq_of_lt (Nat.lt_of_le_of_lt hroom (by decide))
    obtain ⟨QType, htype, -⟩ := CheckedBytes.exists_load buffer
      (DNS_HEADER_SIZE + (q1.QNameLength + 1) % 2 ^ 16) 2
      (by rw [hwide, DNS_HEADER_SIZE]; omega)
    obtain ⟨QClass, hclass, -⟩ := CheckedBytes.exists_load buffer
      (DNS_HEADER_SIZE + (q1.QNameLength + 1) % 2 ^ 16 + 2) 2
      (by rw [hwide, DNS_HEADER_SIZE]; omega)
    refine ⟨⟨QName, (q1.QNameLength + 1) % 2 ^ 16, QType, QClass⟩, ?_⟩
    simp only [copyQuestion, Stages.bind_eq_ok]
    exact ⟨q1, hlabels, QName, hzero, QType, htype, QClass, hclass, rfl⟩

/-! ### The second scan -/

/-- One round of the second scan. -/
theorem parsedLabels_round (buffer : List UInt8) (pos : Nat) (parsed : Text) (len next : UInt8)
    (hlen : buffer[12 + pos]? = some len)
    (hnext : buffer[12 + (pos + len.toNat + 1)]? = some next) :
    parsedLabels buffer pos parsed =
      if next = 0 then .ok (parsed ++ (buffer.drop (12 + pos + 1)).take len.toNat)
      else parsedLabels buffer (pos + len.toNat + 1)
        (parsed ++ (buffer.drop (12 + pos + 1)).take len.toNat ++ [46]) := by
  have hbyte : byte buffer (DNS_OFFSET_DOMAIN_NAME + pos) = .ok len :=
    (CheckedBytes.byte_eq_ok _ _ _).2 hlen
  have hbehind : byte buffer (DNS_OFFSET_DOMAIN_NAME + (pos + len.toNat + 1)) = .ok next :=
    (CheckedBytes.byte_eq_ok _ _ _).2 hnext
  have hlt := CheckedBytes.byte_lt _ _ _ hnext
  obtain ⟨label, hload, hlabel⟩ := CheckedBytes.exists_load buffer
    (DNS_OFFSET_DOMAIN_NAME + pos + 1) len.toNat (by rw [DNS_OFFSET_DOMAIN_NAME]; omega)
  -- the byte behind the label decides whether the name goes on
  rw [parsedLabels]
  simp only [hbyte, hload]
  split
  · next f hf =>
      rw [hbehind] at hf
      cases hf
  · next b hb =>
      rw [hbehind] at hb
      cases hb
      rw [hlabel]
      rfl

/-- The second scan ends where the first one did. -/
theorem parsedLabels_ok (buffer : List UInt8) (pos n : Nat) (parsed : Text)
    (hwalk : walkLength (buffer.drop (12 + pos)) = some n)
    (hstart : buffer[12 + pos]? ≠ some 0) : ∃ t, parsedLabels buffer pos parsed = .ok t := by
  -- a round looks one length ahead, so it is only ever at one that is not zero
  induction n using Nat.strongRecOn generalizing pos parsed with
  | ind n ih =>
      cases hget : buffer[12 + pos]? with
      | none =>
          rw [DnsMessage.walkLength_drop_none _ _ hget] at hwalk
          cases hwalk
      | some len =>
          rw [hget, Ne, Option.some.injEq] at hstart
          rw [DnsMessage.walkLength_drop _ _ _ hget, if_neg hstart] at hwalk
          obtain ⟨m, hm, rfl⟩ := Option.map_eq_some_iff.1 hwalk
          have hplace : 12 + pos + (len.toNat + 1) = 12 + (pos + len.toNat + 1) := by omega
          rw [hplace] at hm
          cases hnext : buffer[12 + (pos + len.toNat + 1)]? with
          | none =>
              rw [DnsMessage.walkLength_drop_none _ _ hnext] at hm
              cases hm
          | some next =>
              rw [parsedLabels_round buffer pos parsed len next hget hnext]
              split_ifs with hzero
              · exact ⟨_, rfl⟩
              · refine ih m (by omega) _ _ hm ?_
                rw [hnext, Ne, Option.some.injEq]
                exact hzero

/-- A name that is written in full begins with a label and goes on behind it. -/
theorem label_at (buffer : List UInt8) (p : Nat) (l : DnsMessage.Label) (n : Name)
    (rest : List UInt8) (h : buffer.drop p = Name.wire (l :: n) ++ rest) :
    buffer[p]? = some (UInt8.ofNat l.1.length) ∧ (buffer.drop (p + 1)).take l.1.length = l.1 ∧
      buffer.drop (p + l.1.length + 1) = Name.wire n ++ rest := by
  rw [DnsMessage.wire_cons, List.append_assoc, DnsMessage.Label.wire, List.cons_append] at h
  have hrest : buffer.drop (p + 1) = l.1 ++ (Name.wire n ++ rest) := by
    rw [← List.drop_drop, h, List.drop_one, List.tail_cons]
  refine ⟨?_, ?_, ?_⟩
  · have hget : (buffer.drop p)[0]? = some (UInt8.ofNat l.1.length) := by
      rw [h]
      rfl
    rwa [List.getElem?_drop, Nat.add_zero] at hget
  · rw [hrest, List.take_left]
  · rw [Nat.add_right_comm, ← List.drop_drop, hrest, List.drop_left]

/-- What the second scan reads of a name that is written in full. -/
theorem parsedLabels_name (buffer : List UInt8) (pos : Nat) (parsed : Text)
    (l : DnsMessage.Label) (n : Name) (rest : List UInt8)
    (h : buffer.drop (12 + pos) = Name.wire (l :: n) ++ rest) :
    parsedLabels buffer pos parsed = .ok (parsed ++ Name.text (l :: n)) := by
  induction n generalizing pos parsed l with
  | nil =>
      -- the last label: the zero stands behind it
      obtain ⟨hget, htake, hrest⟩ := label_at buffer _ l [] rest h
      have hplace : 12 + (pos + l.1.length + 1) = 12 + pos + l.1.length + 1 := by omega
      have hnext : buffer[12 + (pos + l.1.length + 1)]? = some 0 := by
        rw [hplace, ← Nat.add_zero (12 + pos + l.1.length + 1), ← List.getElem?_drop, hrest]
        rfl
      rw [parsedLabels_round buffer pos parsed _ 0 hget
        (by rw [DnsMessage.toNat_label_length]; exact hnext), if_pos rfl,
        DnsMessage.toNat_label_length, htake, DnsMessage.text_singleton]
  | cons m n ih =>
      obtain ⟨hget, htake, hrest⟩ := label_at buffer _ l (m :: n) rest h
      have hplace : 12 + (pos + l.1.length + 1) = 12 + pos + l.1.length + 1 := by omega
      rw [← hplace] at hrest
      have hnext := (label_at buffer _ m n rest hrest).1
      rw [parsedLabels_round buffer pos parsed _ _ hget
        (by rw [DnsMessage.toNat_label_length]; exact hnext),
        if_neg (DnsMessage.label_length_ne_zero m), DnsMessage.toNat_label_length, htake,
        ih _ _ m hrest, DnsMessage.text_cons_cons]
      simp only [List.append_assoc]

end Dns

end ArduinoBeken
