import ArduinoBeken.Tls.SslClient
import Mathlib

/-!
# The Host Name of a Certificate

`verify_ssl_dn` looks for a domain name among the alternative names of a peer's certificate
and among the common names of its subject. A name may begin with a wildcard, which stands
for the leftmost label of a domain.

The domain and the alternative names are folded to lower case before they are compared, the
common names are not. A name with an asterisk is taken for a wildcard or for nothing, so one
that is equal to the domain is passed over; and the wildcard stands for an empty label too.

A certificate without alternative names has a node for them all the same, with an empty name
in it.

## Main definitions

* `X509Crt`: A certificate, as far as it is looked at.
* `matchName`, `verifySslDn`: The check.
* `Certifies`: A name certifies a domain.
* `Recognised`, `Loose`: The names that are found, and the domains that are by mistake.
* `Fair`: The certificates and domains on which the check does as it should.

## Theorems

* `matchName_iff`: What a match is.
* `verifySslDn_iff`: What is accepted.
* `accepts_certified_iff`: The check is right exactly where it is fair.
* `upper_common_name_rejected`: A certificate that is not accepted.
-/

namespace ArduinoBeken.Tls

/-- An attribute of a distinguished name. -/
structure X509Name where
  oid : List UInt8
  val : CStr
deriving DecidableEq, Repr

/-- What is looked at in a certificate. -/
structure X509Crt where
  raw : List UInt8 := []
  subjectAltNames : List CStr := []
  subject : List X509Name := []
deriving DecidableEq, Repr

/-- `MBEDTLS_OID_AT_CN`. -/
def oidAtCn : List UInt8 := [0x55, 0x04, 0x03]

namespace X509Crt

/-- The nodes from `subject_alt_names` on. The first of them is part of the certificate, and
is empty if there are no names. -/
def sanNodes (crt : X509Crt) : List CStr :=
  if crt.subjectAltNames = [] then [[]] else crt.subjectAltNames

/-- The common names of a certificate. -/
def commonNames (crt : X509Crt) : List CStr :=
  (crt.subject.filter fun n => n.oid = oidAtCn).map X509Name.val

end X509Crt

/-- `std::transform` with `::tolower`. -/
def lower (s : CStr) : CStr := s.map Char.toLower

/-- `std::string::find`, where `none` is `npos`. -/
def find (s : CStr) (c : Char) : Option Nat := s.findIdx? (· == c)

/-- `match_name`, with a wildcard or without. -/
def matchName (name domainName : CStr) : Bool :=
  match find name '*' with
  | none => name == domainName
  | some wildcardPos =>
    let firstDotPos := find name '.'
    if firstDotPos.any (· < wildcardPos) then false
    else if wildcardPos ≠ 0 ∨ firstDotPos ≠ some 1 then false
    else
      match find domainName '.' with
      | none => false
      | some domainNameFirstDotPos => domainName.drop domainNameFirstDotPos == name.drop 1

/-- `verify_ssl_dn`: the alternative names first, then the common names. -/
def verifySslDn (crt : X509Crt) (domainName : CStr) : Bool :=
  let domainNameStr := lower domainName
  crt.sanNodes.any (fun san => matchName (lower san) domainNameStr) ||
    crt.commonNames.any fun commonName => matchName commonName domainNameStr

/-! ### What a name certifies -/

/-- `*.rest`, of a domain that is a label, a dot and `rest`. -/
def Covers (label rest name domain : CStr) : Prop :=
  '.' ∉ label ∧ name = '*' :: '.' :: rest ∧ domain = label ++ '.' :: rest

/-- In whatever case, a name certifies the domain that it is, and those that are one label
in front of what is behind its wildcard. -/
def Certifies (name domain : CStr) : Prop :=
  lower name = lower domain ∨
    ∃ label rest, label ≠ [] ∧ Covers label rest (lower name) (lower domain)

/-- An alternative name or a common name certifies the domain. -/
def X509Crt.Certifies (crt : X509Crt) (domain : CStr) : Prop :=
  ∃ name ∈ crt.subjectAltNames ++ crt.commonNames, Tls.Certifies name domain

/-! ### What a match is -/

theorem find_eq_none_iff (s : CStr) (c : Char) : find s c = none ↔ c ∉ s := by
  rw [find, List.findIdx?_eq_none_iff]
  constructor
  · intro h hc
    exact absurd (h c hc) (by rw [beq_self_eq_true]; exact Bool.noConfusion)
  · intro h x hx
    rw [beq_eq_false_iff_ne]
    rintro rfl
    exact h hx

/-- The first place of a character splits the text. -/
theorem find_eq_some_iff (s : CStr) (c : Char) (n : Nat) :
    find s c = some n ↔ ∃ front back, c ∉ front ∧ front.length = n ∧ s = front ++ c :: back := by
  -- by induction on the text, character by character
  induction s generalizing n with
  | nil =>
      refine iff_of_false (fun h => nomatch h) ?_
      rintro ⟨front, back, -, -, h⟩
      exact List.append_ne_nil_of_right_ne_nil front (List.cons_ne_nil c back) h.symm
  | cons a s ih =>
      rw [find, List.findIdx?_cons]
      by_cases ha : a = c
      · subst ha
        rw [beq_self_eq_true, if_pos rfl]
        constructor
        · -- The character is here, and a front without it must be empty.
          intro h
          exact ⟨[], s, List.not_mem_nil, Option.some.inj h, rfl⟩
        · rintro ⟨front, back, hfront, rfl, h⟩
          cases front with
          | nil => rfl
          | cons b front =>
              obtain ⟨rfl, -⟩ := List.cons.inj h
              exact absurd List.mem_cons_self hfront
      · rw [beq_false_of_ne ha, if_neg Bool.false_ne_true]
        -- It is further on, and the front begins with this one.
        change (find s c).map (· + 1) = some n ↔ _
        rw [Option.map_eq_some_iff]
        constructor
        · rintro ⟨m, hm, rfl⟩
          rcases (ih m).1 hm with ⟨front, back, hfront, rfl, rfl⟩
          refine ⟨a :: front, back, ?_, rfl, rfl⟩
          rw [List.mem_cons, not_or]
          exact ⟨fun h => ha h.symm, hfront⟩
        · rintro ⟨front, back, hfront, rfl, h⟩
          cases front with
          | nil => exact absurd (List.cons.inj h).1 ha
          | cons b front =>
              obtain ⟨rfl, rfl⟩ := List.cons.inj h
              refine ⟨front.length, (ih _).2 ⟨front, back, ?_, rfl, rfl⟩, rfl⟩
              exact fun hc => hfront (List.mem_cons_of_mem _ hc)

/-- A name with an asterisk at its front and a dot behind that. -/
theorem wildcard_iff (name : CStr) :
    (find name '*' = some 0 ∧ find name '.' = some 1) ↔ ∃ rest, name = '*' :: '.' :: rest := by
  constructor
  · -- The asterisk has nothing in front of it, the dot has only the asterisk.
    rintro ⟨hstar, hdot⟩
    rcases (find_eq_some_iff name '*' 0).1 hstar with ⟨front, back, -, hlen, rfl⟩
    rw [List.length_eq_zero_iff.1 hlen, List.nil_append] at hdot ⊢
    rcases (find_eq_some_iff _ '.' 1).1 hdot with ⟨front', rest, -, hlen', h⟩
    rcases List.length_eq_one_iff.1 hlen' with ⟨a, rfl⟩
    exact ⟨rest, by rw [(List.cons.inj h).2]; rfl⟩
  · rintro ⟨rest, rfl⟩
    exact ⟨(find_eq_some_iff _ '*' 0).2 ⟨[], _, List.not_mem_nil, rfl, rfl⟩,
      (find_eq_some_iff _ '.' 1).2 ⟨['*'], rest, by decide, rfl, rfl⟩⟩

/-- The test of the wildcard, once a name has one. -/
theorem covers_iff (rest domain : CStr) :
    (match find domain '.' with
      | none => false
      | some pos => domain.drop pos == ('*' :: '.' :: rest).drop 1) = true ↔
      ∃ label, '.' ∉ label ∧ domain = label ++ '.' :: rest := by
  cases hdot : find domain '.' with
  | none =>
      refine iff_of_false Bool.false_ne_true ?_
      -- A domain that is covered has a dot, the one behind its label.
      rintro ⟨label, -, rfl⟩
      exact (find_eq_none_iff _ _).1 hdot (List.mem_append_right label List.mem_cons_self)
  | some pos =>
      rcases (find_eq_some_iff domain '.' pos).1 hdot with ⟨label, back, hlabel, rfl, rfl⟩
      simp only [List.drop_left, List.drop_succ_cons, List.drop_zero, beq_iff_eq]
      constructor
      · intro h
        exact ⟨label, hlabel, by rw [h]⟩
      · rintro ⟨label', hlabel', h⟩
        -- both labels end at the first dot
        have hpos : find (label ++ '.' :: back) '.' = some label'.length :=
          (find_eq_some_iff _ _ _).2 ⟨label', rest, hlabel', rfl, h⟩
        have hlen : label.length = label'.length := Option.some.inj (hdot.symm.trans hpos)
        exact (List.append_inj h hlen).2

/-- A match is of a name without an asterisk with itself, or of a wildcard. -/
theorem matchName_iff (name domain : CStr) :
    matchName name domain = true ↔
      ('*' ∉ name ∧ name = domain) ∨ ∃ label rest, Covers label rest name domain := by
  unfold matchName
  cases hstar : find name '*' with
  | none =>
      have hno := (find_eq_none_iff name '*').1 hstar
      simp only [beq_iff_eq]
      refine ⟨fun h => Or.inl ⟨hno, h⟩, fun h => ?_⟩
      rcases h with h | ⟨label, rest, -, rfl, -⟩
      · exact h.2
      · exact absurd List.mem_cons_self hno
  | some wildcardPos =>
      -- From here on the name has an asterisk somewhere.
      have hmem : '*' ∈ name := by
        by_contra hno
        rw [(find_eq_none_iff name '*').2 hno] at hstar
        exact Option.some_ne_none _ hstar.symm
      simp only
      by_cases hwild : wildcardPos = 0 ∧ find name '.' = some 1
      · rcases hwild with ⟨rfl, hdot⟩
        rcases (wildcard_iff name).1 ⟨hstar, hdot⟩ with ⟨rest, rfl⟩
        -- a leading `*.` covers one label, and the rest has to be the same
        rw [hdot, if_neg (by decide), if_neg (by decide), covers_iff]
        constructor
        · rintro ⟨label, hlabel, hdomain⟩
          exact Or.inr ⟨label, rest, hlabel, rfl, hdomain⟩
        · rintro (h | ⟨label, rest', hlabel, hname, hdomain⟩)
          · exact absurd hmem h.1
          · obtain rfl := (List.cons.inj (List.cons.inj hname).2).2
            exact ⟨label, hlabel, hdomain⟩
      · -- Any other place of the asterisk or of the dot ends in false.
        have hfalse : ∀ b : Bool, (if (find name '.').any (· < wildcardPos) then false
            else if wildcardPos ≠ 0 ∨ find name '.' ≠ some 1 then false else b) = false := by
          intro b
          rw [not_and_or] at hwild
          rw [if_pos hwild, ite_self]
        rw [hfalse]
        refine iff_of_false Bool.false_ne_true ?_
        rintro (h | ⟨label, rest, -, rfl, -⟩)
        · exact h.1 hmem
        · have hboth := (wildcard_iff ('*' :: '.' :: rest)).2 ⟨rest, rfl⟩
          exact hwild ⟨Option.some.inj (hstar.symm.trans hboth.1), hboth.2⟩

/-! ### What is accepted -/

/-- The asterisk of a domain is its leftmost label, if it has one. -/
def StarInFront (domain : CStr) : Prop :=
  '*' ∈ domain → ∃ rest, domain = '*' :: '.' :: rest

/-- An alternative name that certifies the domain and is found: one that is equal to it has
no asterisk but the one in front of a dot. -/
def FoundAlternative (name domain : CStr) : Prop :=
  Certifies name domain ∧ (lower name = lower domain → StarInFront (lower domain))

/-- A common name is found if it has no upper case letter besides. -/
def FoundCommon (name domain : CStr) : Prop :=
  FoundAlternative name domain ∧ lower name = name

/-- A name that certifies the domain and is found. -/
def X509Crt.Recognised (crt : X509Crt) (domain : CStr) : Prop :=
  (∃ name ∈ crt.subjectAltNames, FoundAlternative name domain) ∨
    ∃ name ∈ crt.commonNames, FoundCommon name domain

/-- A domain with an empty label in front of what is behind the wildcard of a name, or one
that is empty itself, for a certificate without alternative names. -/
def X509Crt.Loose (crt : X509Crt) (domain : CStr) : Prop :=
  (domain = [] ∧ crt.subjectAltNames = []) ∨
    ∃ rest, lower domain = '.' :: rest ∧
      '*' :: '.' :: rest ∈ crt.subjectAltNames.map lower ++ crt.commonNames

/-- A name is found if there is one, and none is found by mistake. -/
def X509Crt.Fair (crt : X509Crt) (domain : CStr) : Prop :=
  (crt.Certifies domain → crt.Recognised domain ∨ crt.Loose domain) ∧
    (crt.Loose domain → crt.Certifies domain)

/-- A letter in lower case stays as it is. -/
theorem toLower_toLower (c : Char) : c.toLower.toLower = c.toLower := by
  by_cases h : c.val ≥ 'A'.val ∧ c.val ≤ 'Z'.val
  · have hval : c.toLower.val = c.val + 32 := by
      rw [Char.toLower, dif_pos h]
      rfl
    have hbig : ¬ (c.toLower.val ≥ 'A'.val ∧ c.toLower.val ≤ 'Z'.val) := by
      rw [hval]
      simp only [ge_iff_le, UInt32.le_iff_toNat_le, UInt32.toNat_add] at h ⊢
      simp at h ⊢
      omega
    rw [Char.toLower, dif_neg hbig]
  · rw [Char.toLower, Char.toLower, dif_neg h, dif_neg h]

theorem lower_lower (s : CStr) : lower (lower s) = lower s := by
  rw [lower, lower, List.map_map]
  exact List.map_congr_left fun c _ => toLower_toLower c

/-- A name in lower case is matched if it certifies the domain and has its asterisk in
front, or if its wildcard stands for nothing. -/
theorem match_lower_iff (name domain : CStr) :
    matchName (lower name) (lower domain) = true ↔
      FoundAlternative name domain ∨
        ∃ rest, lower domain = '.' :: rest ∧ lower name = '*' :: '.' :: rest := by
  rw [matchName_iff]
  constructor
  · -- What is matched: the name itself, which has no asterisk, or a wildcard.
    rintro (⟨hstar, heq⟩ | ⟨label, rest, hcov⟩)
    · refine Or.inl ⟨Or.inl heq, fun _ hmem => ?_⟩
      exact absurd (heq ▸ hmem) hstar
    · rcases hcov with ⟨hlabel, hname, hdomain⟩
      -- The label may be empty in the code, not in a certificate.
      by_cases hempty : label = []
      · subst hempty
        exact Or.inr ⟨rest, hdomain, hname⟩
      · refine Or.inl ⟨Or.inr ⟨label, rest, hempty, hlabel, hname, hdomain⟩, ?_⟩
        intro heq _
        exact ⟨rest, heq.symm.trans hname⟩
  · rintro (⟨hcert, hfront⟩ | ⟨rest, hdomain, hname⟩)
    · rcases hcert with heq | ⟨label, rest, -, hcov⟩
      · by_cases hstar : '*' ∈ lower domain
        · -- the domain is covered by itself, with the asterisk for its label
          rcases hfront heq hstar with ⟨rest, hrest⟩
          exact Or.inr ⟨['*'], rest, by decide, heq.trans hrest, hrest⟩
        · exact Or.inl ⟨heq ▸ hstar, heq⟩
      · exact Or.inr ⟨label, rest, hcov⟩
    · exact Or.inr ⟨[], rest, List.not_mem_nil, hname, hdomain⟩

/-- What a domain in lower case matches is in lower case too. -/
theorem lower_eq_of_match (name domain : CStr) (h : matchName name (lower domain) = true) :
    lower name = name := by
  rcases (matchName_iff name (lower domain)).1 h with ⟨-, rfl⟩ | ⟨label, rest, -, hname, hd⟩
  · exact lower_lower domain
  · -- The domain is in lower case, so what is behind its label is.
    have hboth : lower label ++ '.' :: lower rest = label ++ '.' :: rest := by
      have hdot : lower (label ++ '.' :: rest) = lower label ++ '.' :: lower rest :=
        List.map_append
      rw [← hdot, ← hd, lower_lower]
    have htail := List.append_inj_right hboth (List.length_map _)
    have hrest : lower rest = rest := (List.cons.inj htail).2
    rw [hname]
    exact congrArg (fun r => '*' :: '.' :: r) hrest

theorem match_common_iff (name domain : CStr) :
    matchName name (lower domain) = true ↔
      FoundCommon name domain ∨
        ∃ rest, lower domain = '.' :: rest ∧ name = '*' :: '.' :: rest := by
  constructor
  · intro h
    have hlow := lower_eq_of_match name domain h
    rw [← hlow] at h
    rcases (match_lower_iff name domain).1 h with hfound | ⟨rest, hd, hname⟩
    · exact Or.inl ⟨hfound, hlow⟩
    · exact Or.inr ⟨rest, hd, hlow.symm.trans hname⟩
  · rintro (⟨hfound, hlow⟩ | ⟨rest, hd, rfl⟩)
    · rw [← hlow]
      exact (match_lower_iff name domain).2 (Or.inl hfound)
    · exact (matchName_iff _ _).2 (Or.inr ⟨[], rest, List.not_mem_nil, rfl, hd⟩)

/-- The empty name of a certificate without alternative names matches the empty domain. -/
theorem match_nodes_iff (crt : X509Crt) (domain : CStr) :
    (∃ name ∈ crt.sanNodes, matchName (lower name) (lower domain) = true) ↔
      (∃ name ∈ crt.subjectAltNames, matchName (lower name) (lower domain) = true) ∨
        (domain = [] ∧ crt.subjectAltNames = []) := by
  unfold X509Crt.sanNodes
  by_cases hnil : crt.subjectAltNames = []
  · rw [if_pos hnil, hnil]
    constructor
    · rintro ⟨name, hmem, h⟩
      obtain rfl := List.mem_singleton.1 hmem
      -- The node is the empty name: it has no wildcard to match with.
      rcases (matchName_iff _ _).1 h with ⟨-, heq⟩ | ⟨label, rest, -, hname, -⟩
      · exact Or.inr ⟨List.map_eq_nil_iff.1 heq.symm, rfl⟩
      · exact absurd hname.symm (List.cons_ne_nil _ _)
    · rintro (⟨name, hmem, -⟩ | ⟨rfl, -⟩)
      · exact absurd hmem List.not_mem_nil
      · exact ⟨[], List.mem_singleton_self [], rfl⟩
  · rw [if_neg hnil]
    exact (or_iff_left fun h => hnil h.2).symm

/-- The check accepts the names that certify the domain and are found, and a domain that is
loose. -/
theorem verifySslDn_iff (crt : X509Crt) (domain : CStr) :
    verifySslDn crt domain = true ↔ crt.Recognised domain ∨ crt.Loose domain := by
  unfold verifySslDn
  rw [Bool.or_eq_true, List.any_eq_true, List.any_eq_true, match_nodes_iff]
  simp only [match_lower_iff]
  simp only [match_common_iff]
  constructor
  · -- One case for each list of names, and the empty node.
    rintro ((⟨name, hmem, hfound | ⟨rest, hd, hname⟩⟩ | hempty) |
      ⟨name, hmem, hfound | ⟨rest, hd, rfl⟩⟩)
    · exact Or.inl (Or.inl ⟨name, hmem, hfound⟩)
    · refine Or.inr (Or.inr ⟨rest, hd, List.mem_append_left _ ?_⟩)
      exact List.mem_map.2 ⟨name, hmem, hname⟩
    · exact Or.inr (Or.inl hempty)
    · exact Or.inl (Or.inr ⟨name, hmem, hfound⟩)
    · exact Or.inr (Or.inr ⟨rest, hd, List.mem_append_right _ hmem⟩)
  · rintro ((⟨name, hmem, hfound⟩ | ⟨name, hmem, hfound⟩) | hempty | ⟨rest, hd, hmem⟩)
    · exact Or.inl (Or.inl ⟨name, hmem, Or.inl hfound⟩)
    · exact Or.inr ⟨name, hmem, Or.inl hfound⟩
    · exact Or.inl (Or.inr hempty)
    · rcases List.mem_append.1 hmem with hmem | hmem
      · rcases List.mem_map.1 hmem with ⟨name, hname, heq⟩
        exact Or.inl (Or.inl ⟨name, hname, Or.inr ⟨rest, hd, heq⟩⟩)
      · exact Or.inr ⟨_, hmem, Or.inr ⟨rest, hd, rfl⟩⟩

theorem certifies_of_recognised (crt : X509Crt) (domain : CStr) (h : crt.Recognised domain) :
    crt.Certifies domain := by
  rcases h with ⟨name, hmem, hfound⟩ | ⟨name, hmem, hfound⟩
  · exact ⟨name, List.mem_append_left _ hmem, hfound.1⟩
  · exact ⟨name, List.mem_append_right _ hmem, hfound.1.1⟩

/-- The domains that the names certify are accepted, and no others, exactly where the check
is fair. -/
theorem accepts_certified_iff (crt : X509Crt) (domain : CStr) :
    (verifySslDn crt domain = true ↔ crt.Certifies domain) ↔ crt.Fair domain := by
  rw [verifySslDn_iff]
  constructor
  · intro h
    exact ⟨h.2, fun hloose => h.1 (Or.inr hloose)⟩
  · -- What is found certifies, so only the loose ones are in question.
    rintro ⟨hfound, hloose⟩
    refine ⟨fun h => ?_, hfound⟩
    rcases h with hrec | hloose'
    · exact certifies_of_recognised crt domain hrec
    · exact hloose hloose'

/-- A common name with an upper case letter is not found. -/
theorem upper_common_name_rejected :
    let crt : X509Crt := { subject := [⟨oidAtCn, "Example.com".toList⟩] }
    ¬ (verifySslDn crt "example.com".toList = true ↔ crt.Certifies "example.com".toList) := by
  intro crt h
  have hcert : crt.Certifies "example.com".toList :=
    -- It certifies the domain, by its name in lower case.
    ⟨"Example.com".toList, by decide, Or.inl (by decide)⟩
  exact absurd (h.2 hcert) (by decide)

end ArduinoBeken.Tls
