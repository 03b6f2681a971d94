import ArduinoBeken.Library.Halving
import ArduinoBeken.Tls.SslClient
import Mathlib.Data.List.Forall2
import Mathlib.Data.List.Lex

/-!
# Certificates in a Bundle

`bk_crt_verify_callback` lets a certificate through if its only fault is that it is not
trusted, and a certificate of the bundle has the name of its issuer and the key of its
signature. The bundle is sorted by name, and is searched by halving it.

The names are compared over the length of the name in the bundle, whatever the length of the
issuer is. So a name that is longer is compared with what lies behind the issuer, and a name
that the issuer only begins with is taken for the issuer. Of several certificates with one
name the search finds one, and no other is tried.

## Main definitions

* `espCrtBundleInit`: The pointers to the certificates.
* `verifyCallback`: The callback, with what it compares.
* `SortedBundle`: The certificates of a bundle, and the bytes that they are.
* `ClearsIssued`: What the callback should do.
* `Looked`: The certificates that halving the bundle looks at.
* `Fair`: The bundles, issuers and flags for which the callback does as it should.

## Theorems

* `espCrtBundleInit_eq`: The pointers are to the certificates of the bundle.
* `memcmp_place`: Within the issuer, a comparison goes by the order of the names.
* `search_spec`: The search ends, and looks where halving looks.
* `callback_spec`: What the callback compares, and when it clears the flags.
* `hit_or_absent`: A search without a hit has missed no certificate of the issuer's name.
* `cleared_iff_issued`: The callback is right exactly where it is fair.
* `second_key_rejected`: A certificate that is not let through.
-/

namespace ArduinoBeken.Tls

open Halving

/-- What lies from a pointer on. -/
abbrev Memory : Type := Nat → UInt8

namespace Memory

/-- Bytes, with something behind them. -/
def place : List UInt8 → Memory → Memory
  | [], behind => behind
  | b :: bytes, behind => fun
    | 0 => b
    | i + 1 => place bytes behind i

/-- The pointer moved on. -/
def advance (p : Memory) (n : Nat) : Memory := fun i => p (n + i)

/-- The number in two bytes from `i` on. -/
def word (p : Memory) (i : Nat) : Nat := (p i).toNat <<< 8 ||| (p (i + 1)).toNat

/-- The bytes up to a length. -/
def bytes (p : Memory) (len : Nat) : List UInt8 := (List.range len).map p

end Memory

/-- `memcmp`, by its sign. -/
def memcmp (p q : Memory) : Nat → Ordering
  | 0 => .eq
  | n + 1 =>
      if p 0 = q 0 then memcmp (p.advance 1) (q.advance 1) n
      else if p 0 < q 0 then .lt
      else .gt

/-- A `mbedtls_x509_buf`. -/
structure X509Buf where
  p : Memory
  len : Nat

/-- The `crt_bundle_t`; the array is `none` for a null pointer. -/
structure CrtBundle where
  crts : Option (List Memory) := none
  numCerts : Nat := 0

/-- The bytes in front of the first entry. -/
def BUNDLE_HEADER_OFFSET : Nat := 2

/-- The bytes in front of the name of an entry. -/
def CRT_HEADER_OFFSET : Nat := 4

/-- The pointers to so many certificates, one behind the other. -/
def crtPointers : Nat → Memory → List Memory
  | 0, _ => []
  | count + 1, curCrt =>
      let nameLen := curCrt.word 0
      let keyLen := curCrt.word 2
      curCrt :: crtPointers count (curCrt.advance (CRT_HEADER_OFFSET + nameLen + keyLen))

/-- `esp_crt_bundle_init`; `allocated` says what `calloc` did. -/
def espCrtBundleInit (allocated : Bool) (x509Bundle : Memory) : CrtBundle :=
  let numCerts := x509Bundle.word 0
  if allocated then
    ⟨some (crtPointers numCerts (x509Bundle.advance BUNDLE_HEADER_OFFSET)), numCerts⟩
  else ⟨none, numCerts⟩

/-- A place of the array, by an `int`. -/
def crtAt (crts : List Memory) (i : Int) : Option Memory :=
  if i < 0 then none else crts[i.toNat]?

/-- A comparison of the search: the place and the number of bytes. -/
abbrev Compared : Type := Int × Nat

/-- The search for the issuer: what was compared, and the place that was found. The first
argument bounds its turns; `none` stands for a place outside the array, or for too many turns. -/
def search (crts : List Memory) (issuer : Memory) :
    Nat → Int → Int → Int → Option (List Compared × Option Int)
  | 0, _, _, _ => none
  | fuel + 1, start, end_, middle =>
      if start ≤ end_ then
        match crtAt crts middle with
        | none => none
        | some crt =>
            let nameLen := crt.word 0
            let crtName := crt.advance CRT_HEADER_OFFSET
            match memcmp issuer crtName nameLen with
            | .eq => some ([(middle, nameLen)], some middle)
            | .lt =>
                (search crts issuer fuel start (middle - 1) ((start + (middle - 1)).tdiv 2)).map
                  fun out => ((middle, nameLen) :: out.1, out.2)
            | .gt =>
                (search crts issuer fuel (middle + 1) end_ ((middle + 1 + end_).tdiv 2)).map
                  fun out => ((middle, nameLen) :: out.1, out.2)
      else some ([], none)

/-- The flag of a certificate without an issuer that is trusted. -/
def MBEDTLS_X509_BADCERT_NOT_TRUSTED : UInt32 := 0x08

/-- The flag of a hash that is not allowed. -/
def MBEDTLS_X509_BADCERT_BAD_MD : UInt32 := 0x4000

/-- The error that ends a verification. -/
def MBEDTLS_ERR_X509_FATAL_ERROR : Int := -0x3000

/-- What the callback leaves: its result, the flags, and what was compared. -/
structure Verified where
  ret : Int
  flags : UInt32
  compared : List Compared := []
deriving DecidableEq, Repr

/-- What the callback does with what the search leaves; `checkSignature` is
`bk_crt_check_signature` of the certificate with a key. -/
def conclude (checkSignature : List UInt8 → Int) (crts : List Memory) (flags : UInt32) :
    Option (List Compared × Option Int) → Option Verified
  | none => none
  | some (compared, none) =>
      some { ret := MBEDTLS_ERR_X509_FATAL_ERROR, flags := flags, compared := compared }
  | some (compared, some middle) =>
      match crtAt crts middle with
      | none => none
      | some crt =>
          let nameLen := crt.word 0
          let keyLen := crt.word 2
          let key := (crt.advance (CRT_HEADER_OFFSET + nameLen)).bytes keyLen
          if checkSignature key = 0 then some { ret := 0, flags := 0, compared := compared }
          else some { ret := MBEDTLS_ERR_X509_FATAL_ERROR, flags := flags, compared := compared }

/-- `bk_crt_verify_callback`. -/
def verifyCallback (checkSignature : List UInt8 → Int) (bundle : CrtBundle)
    (issuerRaw : X509Buf) (flags : UInt32) : Option Verified :=
  let flagsFiltered := flags &&& ~~~MBEDTLS_X509_BADCERT_BAD_MD
  if flagsFiltered ≠ MBEDTLS_X509_BADCERT_NOT_TRUSTED then some { ret := 0, flags := flags }
  else
    match bundle.crts with
    | none => some { ret := MBEDTLS_ERR_X509_FATAL_ERROR, flags := flags }
    | some crts =>
        let end_ : Int := bundle.numCerts - 1
        let middle := (end_ - 0).tdiv 2
        conclude checkSignature crts flags
          (search crts issuerRaw.p (bundle.numCerts + 1) 0 end_ middle)

/-! ### What a bundle is -/

/-- A certificate of a bundle: its subject and its public key. -/
structure CrtEntry where
  name : List UInt8
  key : List UInt8
  name_lt : name.length < 65536
  key_lt : key.length < 65536

/-- A number in two bytes. -/
def wordBytes (n : Nat) : List UInt8 := [UInt8.ofNat (n / 256), UInt8.ofNat (n % 256)]

/-- An entry: the two lengths, the name and the key. -/
def CrtEntry.encode (e : CrtEntry) : List UInt8 :=
  wordBytes e.name.length ++ wordBytes e.key.length ++ e.name ++ e.key

/-- The certificates of a bundle, by the bytes of their subjects. -/
structure SortedBundle where
  entries : List CrtEntry
  count_lt : entries.length < 65536
  sorted : entries.Pairwise fun a b => a.name ≤ b.name

/-- A bundle: the number of entries, and the entries. -/
def SortedBundle.encode (b : SortedBundle) : List UInt8 :=
  wordBytes b.entries.length ++ b.entries.flatMap CrtEntry.encode

/-- The bundle that is in use once these bytes have been loaded. -/
def SortedBundle.load (b : SortedBundle) (behind : Memory) : CrtBundle :=
  espCrtBundleInit true (Memory.place b.encode behind)

/-! ### Bytes in memory -/

namespace Memory

theorem place_append (a b : List UInt8) (behind : Memory) :
    place (a ++ b) behind = place a (place b behind) := by
  induction a with
  | nil => rfl
  | cons c a ih => rw [List.cons_append, place, ih]; rfl

theorem advance_place (a : List UInt8) (behind : Memory) :
    (place a behind).advance a.length = behind := by
  induction a with
  | nil =>
      funext i
      exact congrArg behind (Nat.zero_add i)
  | cons c a ih =>
      funext i
      -- The byte at the place is passed over with the first one.
      have hi : (c :: a).length + i = (a.length + i) + 1 := Nat.succ_add _ _
      rw [advance, hi]
      exact congrFun ih i

theorem advance_advance (p : Memory) (m n : Nat) : (p.advance m).advance n = p.advance (m + n) := by
  funext i
  exact congrArg p (Nat.add_assoc m n i).symm

/-- Bytes are read back from where they are. -/
theorem bytes_place (a : List UInt8) (behind : Memory) : (place a behind).bytes a.length = a := by
  induction a with
  | nil => rfl
  | cons c a ih =>
      rw [bytes, List.length_cons, List.range_succ_eq_map, List.map_cons, List.map_map]
      exact congrArg (c :: ·) ih

/-- A number is read back from its bytes. -/
theorem word_place (n : Nat) (hn : n < 65536) (behind : Memory) :
    (place (wordBytes n) behind).word 0 = n := by
  have hhigh : (UInt8.ofNat (n / 256)).toNat = n / 256 :=
    UInt8.toNat_ofNat_of_lt' (Nat.div_lt_of_lt_mul hn)
  have hlow : (UInt8.ofNat (n % 256)).toNat = n % 256 :=
    UInt8.toNat_ofNat_of_lt' (Nat.mod_lt n (by decide))
  change (UInt8.ofNat (n / 256)).toNat <<< 8 ||| (UInt8.ofNat (n % 256)).toNat = n
  -- The two bytes do not overlap.
  rw [hhigh, hlow, ← Nat.shiftLeft_add_eq_or_of_lt (Nat.mod_lt n (by decide)),
    Nat.shiftLeft_eq]
  exact Nat.div_add_mod' n 256

end Memory

open Memory

/-- A pointer to a certificate. -/
def PointsTo (p : Memory) (e : CrtEntry) : Prop := ∃ behind, p = place e.encode behind

section

variable {p : Memory} {e : CrtEntry} (h : PointsTo p e)

include h

theorem PointsTo.nameLen : p.word 0 = e.name.length := by
  rcases h with ⟨behind, rfl⟩
  rw [CrtEntry.encode, List.append_assoc, List.append_assoc, place_append]
  exact word_place _ e.name_lt _

theorem PointsTo.keyLen : p.word 2 = e.key.length := by
  rcases h with ⟨behind, rfl⟩
  rw [CrtEntry.encode, List.append_assoc, List.append_assoc, place_append, place_append]
  -- The second number begins where the first one ends.
  have hskip := advance_place (wordBytes e.name.length)
    (place (wordBytes e.key.length) (place (e.name ++ e.key) behind))
  have hword := word_place _ e.key_lt (place (e.name ++ e.key) behind)
  rw [← hskip] at hword
  exact hword

/-- The name lies behind the header, and the key behind the name. -/
theorem PointsTo.crtName :
    ∃ behind, p.advance CRT_HEADER_OFFSET = place (e.name ++ e.key) behind := by
  rcases h with ⟨behind, rfl⟩
  rw [CrtEntry.encode, List.append_assoc, place_append]
  exact ⟨behind, advance_place (wordBytes e.name.length ++ wordBytes e.key.length) _⟩

theorem PointsTo.key :
    (p.advance (CRT_HEADER_OFFSET + p.word 0)).bytes (p.word 2) = e.key := by
  rcases h.crtName with ⟨behind, hname⟩
  rw [h.nameLen, h.keyLen, ← advance_advance, hname, place_append, advance_place]
  exact bytes_place e.key behind

end

theorem crtPointers_spec (entries : List CrtEntry) (behind : Memory) :
    List.Forall₂ PointsTo
      (crtPointers entries.length (place (entries.flatMap CrtEntry.encode) behind)) entries := by
  induction entries with
  | nil => exact List.Forall₂.nil
  | cons e entries ih =>
      have hpoints : PointsTo (place ((e :: entries).flatMap CrtEntry.encode) behind) e := by
        rw [List.flatMap_cons, place_append]
        exact ⟨_, rfl⟩
      rw [List.length_cons, crtPointers]
      refine List.Forall₂.cons hpoints ?_
      have hsize : CRT_HEADER_OFFSET + e.name.length + e.key.length = e.encode.length := by
        simp only [CrtEntry.encode, wordBytes, List.length_append, List.length_cons,
          List.length_nil, CRT_HEADER_OFFSET]
      -- The next pointer is behind the name and the key of this one.
      rw [hpoints.nameLen, hpoints.keyLen, hsize, List.flatMap_cons, place_append, advance_place]
      exact ih

/-- The pointers are to the certificates of the bundle. -/
theorem espCrtBundleInit_eq (b : SortedBundle) (behind : Memory) :
    ∃ crts, b.load behind = ⟨some crts, b.entries.length⟩ ∧
      List.Forall₂ PointsTo crts b.entries := by
  have hcount : (place b.encode behind).word 0 = b.entries.length := by
    rw [SortedBundle.encode, place_append]
    exact word_place _ b.count_lt _
  have hrest : (place b.encode behind).advance BUNDLE_HEADER_OFFSET =
      place (b.entries.flatMap CrtEntry.encode) behind := by
    rw [SortedBundle.encode, place_append]
    exact advance_place (wordBytes b.entries.length) _
  refine ⟨_, ?_, crtPointers_spec b.entries behind⟩
  rw [SortedBundle.load, espCrtBundleInit, if_pos rfl, hcount, hrest]

/-! ### What a comparison says -/

/-- Where the issuer is, seen from a name: a name that the issuer begins with is taken for
it. -/
def toward (issuer name : List UInt8) : Ordering :=
  if name <+: issuer then .eq else if issuer < name then .lt else .gt

theorem toward_eq_iff (issuer name : List UInt8) : toward issuer name = .eq ↔ name <+: issuer := by
  unfold toward
  by_cases h : name <+: issuer
  · exact iff_of_true (if_pos h) h
  · rw [if_neg h]
    refine iff_of_false ?_ h
    split <;> exact Ordering.noConfusion

theorem toward_lt_iff (issuer name : List UInt8) :
    toward issuer name = .lt ↔ ¬ name <+: issuer ∧ issuer < name := by
  unfold toward
  by_cases h : name <+: issuer
  · rw [if_pos h]
    exact iff_of_false Ordering.noConfusion fun hn => hn.1 h
  · rw [if_neg h]
    by_cases hlt : issuer < name
    · exact iff_of_true (if_pos hlt) ⟨h, hlt⟩
    · rw [if_neg hlt]
      exact iff_of_false Ordering.noConfusion fun hn => hlt hn.2

theorem toward_gt_iff (issuer name : List UInt8) :
    toward issuer name = .gt ↔ ¬ name <+: issuer ∧ ¬ issuer < name := by
  unfold toward
  by_cases h : name <+: issuer
  · rw [if_pos h]
    exact iff_of_false Ordering.noConfusion fun hn => hn.1 h
  · rw [if_neg h]
    by_cases hlt : issuer < name
    · rw [if_pos hlt]
      exact iff_of_false Ordering.noConfusion fun hn => hn.2 hlt
    · exact iff_of_true (if_neg hlt) ⟨h, hlt⟩

theorem advance_one (c : UInt8) (l : List UInt8) (behind : Memory) :
    (place (c :: l) behind).advance 1 = place l behind :=
  advance_place [c] (place l behind)

/-- Within the issuer, a comparison goes by the order of the names. -/
theorem memcmp_place (issuer name key : List UInt8) (behind behind' : Memory)
    (hlen : name.length ≤ issuer.length) :
    memcmp (place issuer behind) (place (name ++ key) behind') name.length =
      toward issuer name := by
  -- by induction on the name, which is the shorter of the two
  induction name generalizing issuer with
  | nil => exact (if_pos List.nil_prefix).symm
  | cons b name ih =>
      cases issuer with
      | nil => exact absurd hlen (Nat.not_succ_le_zero _)
      | cons a issuer =>
          rw [List.length_cons, memcmp, List.cons_append, advance_one, advance_one]
          change (if a = b then _ else if a < b then _ else _) = _
          by_cases hab : a = b
          · -- A byte that both have: the names are compared behind it.
            subst hab
            have hprefix : a :: name <+: a :: issuer ↔ name <+: issuer :=
              List.prefix_cons_inj a
            have hlt : a :: issuer < a :: name ↔ issuer < name := by
              rw [List.cons_lt_cons_iff]
              exact ⟨fun h => h.elim (fun h => absurd h (UInt8.lt_irrefl a)) And.right,
                fun h => Or.inr ⟨rfl, h⟩⟩
            rw [if_pos rfl, ih issuer (Nat.le_of_succ_le_succ hlen)]
            simp only [toward, hprefix, hlt]
          · -- The first byte that differs decides the order.
            have hne : ¬ b :: name <+: a :: issuer := by
              rw [List.cons_prefix_cons]
              exact fun h => hab h.1.symm
            have hlt : a :: issuer < b :: name ↔ a < b := by
              rw [List.cons_lt_cons_iff]
              exact ⟨fun h => h.elim id fun h => absurd h.1 hab, Or.inl⟩
            rw [if_neg hab]
            simp only [toward, hne, hlt, if_false]

/-! ### The search -/

/-- The answer of a comparison at a place. -/
def answer (crts : List Memory) (issuer : Memory) (i : Nat) : Ordering :=
  match crts[i]? with
  | none => .eq
  | some crt => memcmp issuer (crt.advance CRT_HEADER_OFFSET) (crt.word 0)

theorem crtAt_natCast (crts : List Memory) (i : Nat) : crtAt crts (i : Int) = crts[i]? :=
  if_neg (by omega)

/-- The middle of what is left, as it is worked out with integers. -/
theorem tdiv_mid (lo hi : Nat) (h : lo < hi) :
    ((lo : Int) + ((hi : Int) - 1)).tdiv 2 = (mid lo hi : Int) := by
  rw [Int.tdiv_eq_ediv_of_nonneg (by omega), mid]
  omega

/-- The places that were compared are the ones that halving looks at, each over the length of
the name there, and the one that was found is the one where the answer is `eq`. -/
structure Halved (crts : List Memory) (issuer : Memory) (lo hi : Nat)
    (compared : List Compared) (found : Option Int) : Prop where
  compared_iff : ∀ i n, (i, n) ∈ compared ↔ ∃ (j : Nat) (crt : Memory), i = j ∧
    Visits (answer crts issuer) lo hi j ∧ crts[j]? = some crt ∧ n = crt.word 0
  found_iff : ∀ i, found = some i ↔ ∃ j : Nat, i = j ∧
    Visits (answer crts issuer) lo hi j ∧ answer crts issuer j = .eq

/-- A turn that goes on adds its place to what is compared in the half it goes to. -/
theorem Halved.turn {crts : List Memory} {issuer crt : Memory} {lo hi lo' hi' : Nat}
    {compared : List Compared} {found : Option Int} (h : lo < hi)
    (hcrt : crts[mid lo hi]? = some crt) (hne : answer crts issuer (mid lo hi) ≠ .eq)
    (hiff : ∀ j, Visits (answer crts issuer) lo hi j ↔
      j = mid lo hi ∨ Visits (answer crts issuer) lo' hi' j)
    (hrest : Halved crts issuer lo' hi' compared found) :
    Halved crts issuer lo hi (((mid lo hi : Nat), crt.word 0) :: compared) found := by
  constructor
  -- membership among those compared
  · intro i n
    rw [List.mem_cons, Prod.mk.injEq, hrest.compared_iff]
    constructor
    · -- It is this place, or one of the half that is gone to.
      rintro (⟨rfl, rfl⟩ | ⟨j, crt', rfl, hv, hcrt', rfl⟩)
      · exact ⟨mid lo hi, crt, rfl, Visits.here h, hcrt, rfl⟩
      · exact ⟨j, crt', rfl, (hiff j).2 (Or.inr hv), hcrt', rfl⟩
    · rintro ⟨j, crt', rfl, hv, hcrt', rfl⟩
      rcases (hiff j).1 hv with rfl | hv
      · obtain rfl := Option.some.inj (hcrt.symm.trans hcrt')
        exact Or.inl ⟨rfl, rfl⟩
      · exact Or.inr ⟨j, crt', rfl, hv, hcrt', rfl⟩
  -- and the hit
  · intro i
    rw [hrest.found_iff]
    constructor
    · rintro ⟨j, rfl, hv, heq⟩
      exact ⟨j, rfl, (hiff j).2 (Or.inr hv), heq⟩
    · rintro ⟨j, rfl, hv, heq⟩
      rcases (hiff j).1 hv with rfl | hv
      · -- The answer here is not a hit, so a hit is in that half.
        exact absurd heq hne
      · exact ⟨j, rfl, hv, heq⟩

/-- The search ends, and looks where halving looks. -/
theorem search_spec (crts : List Memory) (issuer : Memory) (fuel lo hi : Nat) (middle : Int)
    (hle : lo ≤ hi) (hhi : hi ≤ crts.length) (hfuel : hi - lo < fuel)
    (hmid : lo < hi → middle = (mid lo hi : Int)) :
    ∃ compared found, search crts issuer fuel lo ((hi : Int) - 1) middle = some (compared, found) ∧
      Halved crts issuer lo hi compared found := by
  induction fuel generalizing lo hi middle with
  | zero => exact absurd hfuel (Nat.not_lt_zero _)
  | succ fuel ih =>
      rw [search]
      by_cases h : lo < hi
      · -- The middle lies inside the array, so the access is allowed.
        rcases mid_bounds h with ⟨hlo, hhi'⟩
        have hin : mid lo hi < crts.length := by omega
        have hcrt : crts[mid lo hi]? = some crts[mid lo hi] := List.getElem?_eq_getElem hin
        rw [if_pos (by omega), hmid h, crtAt_natCast, hcrt]
        simp only
        have hanswer : answer crts issuer (mid lo hi) =
            memcmp issuer (crts[mid lo hi].advance CRT_HEADER_OFFSET) (crts[mid lo hi].word 0) := by
          rw [answer, hcrt]
        cases hcmp : memcmp issuer (crts[mid lo hi].advance CRT_HEADER_OFFSET)
            (crts[mid lo hi].word 0) with
        | eq =>
            rw [hcmp] at hanswer
            -- A hit ends the search: no other place is looked at.
            have honly : ∀ j, Visits (answer crts issuer) lo hi j ↔ j = mid lo hi := by
              intro j
              rw [visits_iff h, hanswer]
              simp only [reduceCtorEq, false_and, or_false]
            refine ⟨_, _, rfl, ?_, ?_⟩
            · intro i n
              rw [List.mem_singleton, Prod.mk.injEq]
              constructor
              · rintro ⟨rfl, rfl⟩
                exact ⟨mid lo hi, _, rfl, Visits.here h, hcrt, rfl⟩
              · rintro ⟨j, crt, rfl, hv, hcrt', rfl⟩
                obtain rfl := (honly j).1 hv
                obtain rfl := Option.some.inj (hcrt.symm.trans hcrt')
                exact ⟨rfl, rfl⟩
            · intro i
              rw [Option.some_inj]
              constructor
              · rintro rfl
                exact ⟨mid lo hi, rfl, Visits.here h, hanswer⟩
              · rintro ⟨j, rfl, hv, -⟩
                rw [(honly j).1 hv]
        | lt =>
            rw [hcmp] at hanswer
            -- The half in front, whose end is one before the middle.
            rcases ih lo (mid lo hi) ((lo + (mid lo hi - 1 : Int)).tdiv 2) hlo (by omega)
              (by omega) (tdiv_mid lo (mid lo hi)) with ⟨compared, found, hsearch, hrest⟩
            simp only
            rw [hsearch]
            refine ⟨_, _, rfl, hrest.turn h hcrt (by rw [hanswer]; decide) fun j => ?_⟩
            rw [visits_iff h, hanswer]
            simp only [true_and, reduceCtorEq, false_and, or_false]
        | gt =>
            rw [hcmp] at hanswer
            -- The half behind, which begins one behind the middle.
            rcases ih (mid lo hi + 1) hi _ (by omega) hhi
              (by omega) (tdiv_mid (mid lo hi + 1) hi) with ⟨compared, found, hsearch, hrest⟩
            simp only
            rw [Int.natCast_succ] at hsearch
            rw [hsearch]
            refine ⟨_, _, rfl, hrest.turn h hcrt (by rw [hanswer]; decide) fun j => ?_⟩
            rw [visits_iff h, hanswer]
            simp only [true_and, reduceCtorEq, false_and, false_or]
      · rw [if_neg (by omega)]
        -- Nothing is left, so nothing is compared and nothing is found.
        have hno : ∀ j, ¬ Visits (answer crts issuer) lo hi j :=
          fun j => not_visits_of_le (Nat.le_of_not_lt h)
        refine ⟨[], none, rfl, ?_, ?_⟩
        · intro i n
          refine iff_of_false List.not_mem_nil ?_
          rintro ⟨j, crt, -, hv, -⟩
          exact hno j hv
        · intro i
          refine iff_of_false (fun h => nomatch h) ?_
          rintro ⟨j, -, hv, -⟩
          exact hno j hv

/-! ### What the callback decides -/

/-- Nothing is reported but that the certificate is not trusted, or that its digest is weak
besides. -/
def OnlyNotTrusted (flags : UInt32) : Prop :=
  flags &&& ~~~MBEDTLS_X509_BADCERT_BAD_MD = MBEDTLS_X509_BADCERT_NOT_TRUSTED

instance (flags : UInt32) : Decidable (OnlyNotTrusted flags) :=
  inferInstanceAs (Decidable (_ = _))

theorem OnlyNotTrusted.ne_zero {flags : UInt32} (h : OnlyNotTrusted flags) : flags ≠ 0 := by
  rintro rfl
  exact absurd h (by decide)

section

variable (checkSignature : List UInt8 → Int) (b : SortedBundle) (behind : Memory)
  (issuer : List UInt8) (behind' : Memory) (flags : UInt32)

/-- A certificate of the bundle has the name of the issuer and the key of the signature. -/
def SortedBundle.Issued : Prop :=
  ∃ e ∈ b.entries, e.name = issuer ∧ checkSignature e.key = 0

/-- Where the issuer is, seen from a place of the bundle. -/
def SortedBundle.towardAt (i : Nat) : Ordering :=
  match b.entries[i]? with
  | none => .eq
  | some e => toward issuer e.name

/-- A certificate that halving the bundle towards the issuer looks at. -/
def SortedBundle.Looked (e : CrtEntry) : Prop :=
  ∃ i, Visits (b.towardAt issuer) 0 b.entries.length i ∧ b.entries[i]? = some e

/-- Where the callback does not return at once: what is looked at is no longer than the
issuer, and the one whose name the issuer begins with has the key of the signature just if a
certificate with the name of the issuer has. -/
def SortedBundle.Fair : Prop :=
  OnlyNotTrusted flags → (∀ e, b.Looked issuer e → e.name.length ≤ issuer.length) ∧
    ∀ e, b.Looked issuer e → e.name <+: issuer →
      (checkSignature e.key = 0 ↔ b.Issued checkSignature issuer)

/-- The callback with the bundle loaded, and the issuer in memory. -/
def callback : Option Verified :=
  verifyCallback checkSignature (b.load behind) ⟨place issuer behind', issuer.length⟩ flags

/-- The search ends, it compares within both names, and the flags are cleared for the
certificates whose only fault is cured by the bundle. -/
def ClearsIssued : Prop :=
  ∃ out, callback checkSignature b behind issuer behind' flags = some out ∧
    (∀ i n, (i, n) ∈ out.compared → ∃ (j : Nat) (e : CrtEntry), i = j ∧
      b.entries[j]? = some e ∧ n ≤ e.name.length ∧ n ≤ issuer.length) ∧
    (OnlyNotTrusted flags ∧ b.Issued checkSignature issuer → out.flags = 0) ∧
    (¬ (OnlyNotTrusted flags ∧ b.Issued checkSignature issuer) → out.flags = flags)

/-- Any other report is left as it is. -/
theorem callback_of_not (h : ¬ OnlyNotTrusted flags) :
    callback checkSignature b behind issuer behind' flags = some { ret := 0, flags := flags } := by
  unfold callback verifyCallback
  exact if_pos h

end

/-- A place of the array and of the bundle. -/
theorem pointsTo_at {crts : List Memory} {entries : List CrtEntry}
    (h : List.Forall₂ PointsTo crts entries) (j : Nat) :
    (crts[j]? = none ∧ entries[j]? = none) ∨
      ∃ crt e, crts[j]? = some crt ∧ entries[j]? = some e ∧ PointsTo crt e := by
  induction h generalizing j with
  | nil => exact Or.inl ⟨rfl, rfl⟩
  | cons hp _ ih =>
      cases j with
      | zero => exact Or.inr ⟨_, _, rfl, rfl, hp⟩
      | succ j => exact ih j

section

variable {b : SortedBundle} {crts : List Memory} (hpoints : List.Forall₂ PointsTo crts b.entries)

include hpoints

theorem entry_of_pointer {j : Nat} {crt : Memory} (h : crts[j]? = some crt) :
    ∃ e, b.entries[j]? = some e ∧ PointsTo crt e := by
  rcases pointsTo_at hpoints j with ⟨hnone, -⟩ | ⟨crt', e, hcrt, he, hp⟩
  · exact absurd (h.symm.trans hnone) (Option.some_ne_none crt)
  · obtain rfl := Option.some.inj (h.symm.trans hcrt)
    exact ⟨e, he, hp⟩

theorem pointer_of_entry {j : Nat} {e : CrtEntry} (h : b.entries[j]? = some e) :
    ∃ crt, crts[j]? = some crt ∧ PointsTo crt e := by
  rcases pointsTo_at hpoints j with ⟨-, hnone⟩ | ⟨crt, e', hcrt, he, hp⟩
  · exact absurd (h.symm.trans hnone) (Option.some_ne_none e)
  · obtain rfl := Option.some.inj (h.symm.trans he)
    exact ⟨crt, hcrt, hp⟩

/-- A place that halving looks at, with the certificate there. -/
theorem compared_iff {issuer : Memory} {lo hi : Nat} {compared : List Compared}
    {found : Option Int} (h : Halved crts issuer lo hi compared found) (i : Int) (n : Nat) :
    (i, n) ∈ compared ↔ ∃ (j : Nat) (e : CrtEntry), i = j ∧
      Visits (answer crts issuer) lo hi j ∧ b.entries[j]? = some e ∧ n = e.name.length := by
  rw [h.compared_iff]
  constructor
  · rintro ⟨j, crt, rfl, hv, hcrt, rfl⟩
    rcases entry_of_pointer hpoints hcrt with ⟨e, he, hp⟩
    exact ⟨j, e, rfl, hv, he, hp.nameLen⟩
  · rintro ⟨j, e, rfl, hv, he, rfl⟩
    rcases pointer_of_entry hpoints he with ⟨crt, hcrt, hp⟩
    exact ⟨j, crt, rfl, hv, hcrt, hp.nameLen.symm⟩

/-- Within the issuer, the answer at a place goes by the order of the names. -/
theorem answer_eq_towardAt {issuer : List UInt8} {behind' : Memory} {j : Nat} {e : CrtEntry}
    (he : b.entries[j]? = some e) (hlen : e.name.length ≤ issuer.length) :
    answer crts (place issuer behind') j = b.towardAt issuer j := by
  rcases pointer_of_entry hpoints he with ⟨crt, hcrt, hp⟩
  rcases hp.crtName with ⟨behind, hname⟩
  rw [answer, SortedBundle.towardAt, hcrt, he]
  simp only
  rw [hp.nameLen, hname]
  exact memcmp_place issuer e.name e.key behind' behind hlen

end

section

variable (checkSignature : List UInt8 → Int) (b : SortedBundle) (behind : Memory)
  (issuer : List UInt8) (behind' : Memory) (flags : UInt32)

/-- What the callback compares, and when it clears the flags. -/
theorem callback_spec (h : OnlyNotTrusted flags) (crts : List Memory)
    (hload : b.load behind = ⟨some crts, b.entries.length⟩)
    (hpoints : List.Forall₂ PointsTo crts b.entries) :
    ∃ out, callback checkSignature b behind issuer behind' flags = some out ∧
      (∀ i n, (i, n) ∈ out.compared ↔ ∃ (j : Nat) (e : CrtEntry), i = j ∧
        Visits (answer crts (place issuer behind')) 0 b.entries.length j ∧
        b.entries[j]? = some e ∧ n = e.name.length) ∧
      (out.flags = 0 ∨ out.flags = flags) ∧
      (out.flags = 0 ↔ ∃ (j : Nat) (e : CrtEntry),
        Visits (answer crts (place issuer behind')) 0 b.entries.length j ∧
        answer crts (place issuer behind') j = .eq ∧ b.entries[j]? = some e ∧
        checkSignature e.key = 0) := by
  -- The first middle is worked out from the last place, not from the number of places.
  have hmid : 0 < b.entries.length →
      ((b.entries.length : Int) - 1 - 0).tdiv 2 = (mid 0 b.entries.length : Int) := by
    intro hlt
    rw [← tdiv_mid 0 b.entries.length hlt, Int.sub_zero, Int.natCast_zero, Int.zero_add]
  rcases search_spec crts (place issuer behind') (b.entries.length + 1) 0 b.entries.length
    _ (Nat.zero_le _) (Nat.le_of_eq hpoints.length_eq.symm) (Nat.lt_succ_self _) hmid with
    ⟨compared, found, hsearch, hhalved⟩
  have hcallback : callback checkSignature b behind issuer behind' flags =
      conclude checkSignature crts flags (some (compared, found)) := by
    have hflags : flags &&& ~~~MBEDTLS_X509_BADCERT_BAD_MD = MBEDTLS_X509_BADCERT_NOT_TRUSTED :=
      h
    rw [callback, verifyCallback, hload, ← hsearch]
    exact if_neg (not_not_intro hflags)
  rw [hcallback]
  cases found with
  | none =>
      refine ⟨_, rfl, compared_iff hpoints hhalved, Or.inr rfl, iff_of_false h.ne_zero ?_⟩
      rintro ⟨j, e, hv, heq, -, -⟩
      exact nomatch (hhalved.found_iff j).2 ⟨j, rfl, hv, heq⟩
  | some middle =>
      -- The place that was found is the only one with a hit.
      rcases (hhalved.found_iff middle).1 rfl with ⟨j, rfl, hv, heq⟩
      have hin : j < crts.length := hpoints.length_eq ▸ hv.bounds.2
      rcases entry_of_pointer hpoints (List.getElem?_eq_getElem hin) with ⟨e, he, hp⟩
      simp only [conclude, crtAt_natCast, List.getElem?_eq_getElem hin]
      rw [hp.key]
      by_cases hcheck : checkSignature e.key = 0
      · rw [if_pos hcheck]
        exact ⟨_, rfl, compared_iff hpoints hhalved, Or.inl rfl,
          iff_of_true rfl ⟨j, e, hv, heq, he, hcheck⟩⟩
      · rw [if_neg hcheck]
        refine ⟨_, rfl, compared_iff hpoints hhalved, Or.inr rfl, iff_of_false h.ne_zero ?_⟩
        rintro ⟨j', e', hv', heq', he', hcheck'⟩
        obtain rfl := hit_unique hv heq hv' heq'
        obtain rfl := Option.some.inj (he.symm.trans he')
        exact hcheck hcheck'

/-! ### The order of the names -/

omit checkSignature behind behind' flags

theorem SortedBundle.le_of_le {i j : Nat} {e e' : CrtEntry} (hij : i ≤ j)
    (he : b.entries[i]? = some e) (he' : b.entries[j]? = some e') : e.name ≤ e'.name := by
  rcases List.getElem?_eq_some_iff.1 he with ⟨hi, rfl⟩
  rcases List.getElem?_eq_some_iff.1 he' with ⟨hj, rfl⟩
  rcases Nat.lt_or_eq_of_le hij with hlt | rfl
  · exact List.pairwise_iff_getElem.1 b.sorted i j hi hj hlt
  · exact List.le_refl _

/-- A search without a hit has missed no certificate with the name of the issuer. -/
theorem SortedBundle.hit_or_absent :
    (∃ i e, Visits (b.towardAt issuer) 0 b.entries.length i ∧ b.entries[i]? = some e ∧
      e.name <+: issuer) ∨ ∀ e ∈ b.entries, e.name ≠ issuer := by
  have hat : ∀ j, Visits (b.towardAt issuer) 0 b.entries.length j → ∃ e,
      b.entries[j]? = some e ∧ b.towardAt issuer j = toward issuer e.name := by
    intro j hv
    -- A place that is looked at is one of the bundle.
    have he := List.getElem?_eq_getElem hv.bounds.2
    exact ⟨_, he, by rw [SortedBundle.towardAt, he]⟩
  let sought : Nat → Prop := fun k => ∃ e, b.entries[k]? = some e ∧ e.name = issuer
  have hfront : ∀ j, Visits (b.towardAt issuer) 0 b.entries.length j →
      b.towardAt issuer j = .lt → ∀ k, j ≤ k → k < b.entries.length → ¬ sought k := by
    -- the issuer is in front of this name, and so of the names behind it
    rintro j hv hcmp k hjk - ⟨e', he', rfl⟩
    rcases hat j hv with ⟨e, he, htoward⟩
    have hlt := (toward_lt_iff e'.name e.name).1 (htoward.symm.trans hcmp)
    exact absurd hlt.2 (List.not_lt.2 (b.le_of_le hjk he he'))
  have hbehind : ∀ j, Visits (b.towardAt issuer) 0 b.entries.length j →
      b.towardAt issuer j = .gt → ∀ k, 0 ≤ k → k ≤ j → ¬ sought k := by
    -- The issuer is behind this name, and equal to none in front of it but to itself.
    rintro j hv hcmp k - hkj ⟨e', he', rfl⟩
    rcases hat j hv with ⟨e, he, htoward⟩
    have hgt := (toward_gt_iff e'.name e.name).1 (htoward.symm.trans hcmp)
    have hle : e.name ≤ e'.name := List.not_lt.1 hgt.2
    have hsame : e.name = e'.name := List.le_antisymm hle (b.le_of_le hkj he' he)
    exact hgt.1 (hsame ▸ List.prefix_refl _)
  rcases Halving.hit_or_absent sought 0 b.entries.length hfront hbehind with
    ⟨i, hv, heq⟩ | habsent
  · rcases hat i hv with ⟨e, he, htoward⟩
    exact Or.inl ⟨i, e, hv, he, (toward_eq_iff issuer e.name).1 (htoward.symm.trans heq)⟩
  · refine Or.inr fun e hmem hname => ?_
    rcases List.mem_iff_getElem?.1 hmem with ⟨k, hk⟩
    exact habsent k (Nat.zero_le k) (List.getElem?_eq_some_iff.1 hk).1 ⟨e, hk, hname⟩

end

section

variable (checkSignature : List UInt8 → Int) (b : SortedBundle) (behind : Memory)
  (issuer : List UInt8) (behind' : Memory) (flags : UInt32)

/-- Where nothing is longer than the issuer, the callback looks where halving by the order of
the names looks. -/
theorem looked_iff {crts : List Memory} (hpoints : List.Forall₂ PointsTo crts b.entries)
    (hinside : (∀ j e, Visits (answer crts (place issuer behind')) 0 b.entries.length j →
        b.entries[j]? = some e → e.name.length ≤ issuer.length) ∨
      ∀ e, b.Looked issuer e → e.name.length ≤ issuer.length) (j : Nat) :
    Visits (answer crts (place issuer behind')) 0 b.entries.length j ↔
      Visits (b.towardAt issuer) 0 b.entries.length j := by
  rcases hinside with hinside | hinside
  · refine visits_congr fun i hv => ?_
    have he := List.getElem?_eq_getElem hv.bounds.2
    exact answer_eq_towardAt hpoints he (hinside i _ hv he)
  · refine (visits_congr fun i hv => ?_).symm
    have he := List.getElem?_eq_getElem hv.bounds.2
    exact (answer_eq_towardAt hpoints he (hinside _ ⟨i, hv, he⟩)).symm

/-- A certificate is let through where the one that the search hits has the key of the
signature. -/
theorem hit_decides (issued : Prop)
    (hissued : (∀ e ∈ b.entries, e.name ≠ issuer) → ¬ issued) (cleared : Prop)
    (hcleared : cleared ↔ ∃ (j : Nat) (e : CrtEntry),
      Visits (b.towardAt issuer) 0 b.entries.length j ∧ b.entries[j]? = some e ∧
      e.name <+: issuer ∧ checkSignature e.key = 0) :
    (cleared ↔ issued) ↔
      ∀ e, b.Looked issuer e → e.name <+: issuer → (checkSignature e.key = 0 ↔ issued) := by
  -- At most one place is a hit.
  have hunique : ∀ i j (e e' : CrtEntry), Visits (b.towardAt issuer) 0 b.entries.length i →
      b.entries[i]? = some e → e.name <+: issuer →
      Visits (b.towardAt issuer) 0 b.entries.length j → b.entries[j]? = some e' →
      e'.name <+: issuer → e = e' := by
    intro i j e e' hi he hpre hj he' hpre'
    have heq : b.towardAt issuer i = .eq := by
      rw [SortedBundle.towardAt, he]
      exact (toward_eq_iff issuer e.name).2 hpre
    have heq' : b.towardAt issuer j = .eq := by
      rw [SortedBundle.towardAt, he']
      exact (toward_eq_iff issuer e'.name).2 hpre'
    obtain rfl := hit_unique hi heq hj heq'
    exact Option.some.inj (he.symm.trans he')
  constructor
  · rintro h e ⟨i, hv, he⟩ hpre
    rw [← h, hcleared]
    refine ⟨fun hcheck => ⟨i, e, hv, he, hpre, hcheck⟩, ?_⟩
    rintro ⟨j, e', hv', he', hpre', hcheck⟩
    rw [hunique i j e e' hv he hpre hv' he' hpre']
    exact hcheck
  -- with a hit the flags are its check, without one they stay
  · intro h
    rw [hcleared]
    rcases b.hit_or_absent issuer with ⟨i, e, hv, he, hpre⟩ | habsent
    · rw [← h e ⟨i, hv, he⟩ hpre]
      refine ⟨?_, fun hcheck => ⟨i, e, hv, he, hpre, hcheck⟩⟩
      rintro ⟨j, e', hv', he', hpre', hcheck⟩
      rw [hunique i j e e' hv he hpre hv' he' hpre']
      exact hcheck
    · constructor
      · rintro ⟨j, e, hv, he, hpre, hcheck⟩
        exact (h e ⟨j, hv, he⟩ hpre).1 hcheck
      · exact fun hi => absurd hi (hissued habsent)

/-- The flags are cleared for the certificates whose only fault is cured by the bundle, and
nothing outside the names is compared, exactly where the callback is fair. -/
theorem cleared_iff_issued :
    ClearsIssued checkSignature b behind issuer behind' flags ↔
      b.Fair checkSignature issuer flags := by
  by_cases hflags : OnlyNotTrusted flags
  · rcases espCrtBundleInit_eq b behind with ⟨crts, hload, hpoints⟩
    rcases callback_spec checkSignature b behind issuer behind' flags hflags crts hload hpoints
      with ⟨out, hcallback, hcompared, hor, hzero⟩
    have hissued : (∀ e ∈ b.entries, e.name ≠ issuer) → ¬ b.Issued checkSignature issuer := by
      rintro habsent ⟨e, hmem, hname, -⟩
      exact habsent e hmem hname
    -- while everything that is compared lies within the issuer, the two searches are one
    have hdecides : (∀ e, b.Looked issuer e → e.name.length ≤ issuer.length) →
        ((out.flags = 0 ↔ b.Issued checkSignature issuer) ↔
          ∀ e, b.Looked issuer e → e.name <+: issuer →
            (checkSignature e.key = 0 ↔ b.Issued checkSignature issuer)) := by
      intro hinside
      refine hit_decides checkSignature b issuer _ hissued _ (hzero.trans ?_)
      refine exists_congr fun j => exists_congr fun e => ?_
      rw [looked_iff b issuer behind' hpoints (Or.inr hinside)]
      refine and_congr_right fun hv => ?_
      constructor
      · rintro ⟨heq, he, hcheck⟩
        rw [answer_eq_towardAt hpoints he (hinside e ⟨j, hv, he⟩), SortedBundle.towardAt, he]
          at heq
        exact ⟨he, (toward_eq_iff issuer e.name).1 heq, hcheck⟩
      · rintro ⟨he, hpre, hcheck⟩
        refine ⟨?_, he, hcheck⟩
        rw [answer_eq_towardAt hpoints he (hinside e ⟨j, hv, he⟩), SortedBundle.towardAt, he]
        exact (toward_eq_iff issuer e.name).2 hpre
    constructor
    · -- Each comparison is within the issuer, so no name looked at is longer.
      rintro ⟨out', hsame, hwithin, hclear, hkeep⟩ -
      obtain rfl := Option.some.inj (hcallback.symm.trans hsame)
      have hvisited : ∀ j e, Visits (answer crts (place issuer behind')) 0 b.entries.length j →
          b.entries[j]? = some e → e.name.length ≤ issuer.length := by
        intro j e hv he
        rcases hwithin j e.name.length ((hcompared _ _).2 ⟨j, e, rfl, hv, he, rfl⟩) with
          ⟨-, -, -, -, -, hle⟩
        exact hle
      have hinside : ∀ e, b.Looked issuer e → e.name.length ≤ issuer.length := by
        rintro e ⟨j, hv, he⟩
        rw [← looked_iff b issuer behind' hpoints (Or.inl hvisited)] at hv
        exact hvisited j e hv he
      refine ⟨hinside, (hdecides hinside).1 ⟨fun h0 => ?_, fun hi => hclear ⟨hflags, hi⟩⟩⟩
      by_contra hnot
      exact hflags.ne_zero ((hkeep fun h => hnot h.2).symm.trans h0)
    · -- The flags depend on the hit alone, and the condition speaks of it.
      intro hfair
      rcases hfair hflags with ⟨hinside, hhit⟩
      have hiff := (hdecides hinside).2 hhit
      refine ⟨out, hcallback, ?_, fun h => hiff.2 h.2, fun hnot => ?_⟩
      · intro i n hmem
        rcases (hcompared i n).1 hmem with ⟨j, e, rfl, hv, he, rfl⟩
        rw [looked_iff b issuer behind' hpoints (Or.inr hinside)] at hv
        exact ⟨j, e, rfl, he, Nat.le_refl _, hinside e ⟨j, hv, he⟩⟩
      · exact hor.resolve_left fun h0 => hnot ⟨hflags, hiff.1 h0⟩
  · -- Another report is returned as it is, and asks for nothing.
    refine iff_of_true ?_ fun h => absurd h hflags
    refine ⟨_, callback_of_not checkSignature b behind issuer behind' flags hflags, ?_, ?_, ?_⟩
    · exact fun i n h => absurd h List.not_mem_nil
    · exact fun h => absurd h.1 hflags
    · exact fun _ => rfl

end

/-- A bundle with two keys for one subject. -/
def twoKeys : SortedBundle where
  entries := [⟨[0x30, 0x00], [1], by decide, by decide⟩, ⟨[0x30, 0x00], [2], by decide, by decide⟩]
  count_lt := by decide
  sorted := by decide

/-- The second key is that of the signature, but only the first one is tried. -/
theorem second_key_rejected :
    ¬ ClearsIssued (fun key => if key = [2] then 0 else -1) twoKeys (fun _ => 0) [0x30, 0x00]
      (fun _ => 0) MBEDTLS_X509_BADCERT_NOT_TRUSTED := by
  rintro ⟨out, hcallback, -, hclear, -⟩
  have hkept : callback (fun key => if key = [2] then 0 else -1) twoKeys (fun _ => 0)
      [0x30, 0x00] (fun _ => 0) MBEDTLS_X509_BADCERT_NOT_TRUSTED =
      some ⟨MBEDTLS_ERR_X509_FATAL_ERROR, MBEDTLS_X509_BADCERT_NOT_TRUSTED, [(0, 2)]⟩ := by
    decide
  obtain rfl := Option.some.inj (hkept.symm.trans hcallback)
  refine absurd (hclear ⟨by decide, ?_⟩) (by decide)
  exact ⟨_, List.mem_cons_of_mem _ (List.mem_singleton_self _), rfl, if_pos rfl⟩

end ArduinoBeken.Tls
