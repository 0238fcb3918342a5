import ZtGateway.Lib.UrlReference
import ZtGateway.Spec.Address

/-! `extractIp` against the grammars of IP addresses that its two regular expressions stand for. -/

namespace ZTG

/-- an IPv4 dotted quad or an IPv6 address, without a zone -/
def IpAddress (e : List Char) : Prop :=
  (parseIPv4 (String.ofList e)).isSome ∨
    '%' ∉ e ∧ (parseIPv6 (String.ofList e)).isSome

instance (e : List Char) : Decidable (IpAddress e) := inferInstanceAs (Decidable (_ ∨ _))

variable {e : List Char}

/-! What the regular expressions match. -/

theorem matchesIpv4_of_quad (h : (parseIPv4 (String.ofList e)).isSome) : matchesIpv4 e = true := by
  unfold parseIPv4 at h
  rw [String.toList_ofList] at h
  dsimp only at h
  split_ifs at h with hquad
  · simp only [Bool.and_eq_true] at hquad
    obtain ⟨⟨hlen, hoctets⟩, -⟩ := hquad
    unfold matchesIpv4
    rw [Bool.and_eq_true]
    refine ⟨hlen, List.all_eq_true.mpr fun p hp => ?_⟩
    have hoctet := List.all_eq_true.mp hoctets p hp
    simp only [Bool.and_eq_true, decide_eq_true_eq] at hoctet ⊢
    exact ⟨⟨hoctet.1.1.2, hoctet.1.2⟩, hoctet.1.1.1⟩
  · cases h

theorem mem_splitOn {sep c : Char} {s : List Char} (hc : c ∈ s) (hne : c ≠ sep) :
    ∃ p ∈ s.splitOn sep, c ∈ p := by
  induction s with
  | nil => cases hc
  | cons a s ih =>
    rw [List.splitOn_cons_eq_if_modifyHead]
    split_ifs with ha
    · have hrest : c ∈ s :=
        (List.mem_cons.mp hc).resolve_left fun h => hne (h.trans (beq_iff_eq.mp ha))
      obtain ⟨p, hp, hmem⟩ := ih hrest
      exact ⟨p, List.mem_cons_of_mem _ hp, hmem⟩
    · obtain ⟨q, qs, hsplit⟩ := List.exists_cons_of_ne_nil (List.splitOn_ne_nil sep s)
      rw [hsplit, List.modifyHead_cons]
      rcases List.mem_cons.mp hc with rfl | hrest
      · exact ⟨_, List.mem_cons_self, List.mem_cons_self⟩
      · obtain ⟨p, hp, hmem⟩ := ih hrest
        rw [hsplit] at hp
        rcases List.mem_cons.mp hp with rfl | hp
        · exact ⟨_, List.mem_cons_self, List.mem_cons_of_mem _ hmem⟩
        · exact ⟨p, List.mem_cons_of_mem _ hp, hmem⟩

theorem matchesIpv4_chars (h : matchesIpv4 e = true) : ':' ∉ e := by
  intro hc
  obtain ⟨p, hp, hmem⟩ := mem_splitOn hc (show ':' ≠ '.' by decide)
  unfold matchesIpv4 at h
  rw [Bool.and_eq_true] at h
  have hpart := List.all_eq_true.mp h.2 p hp
  simp only [Bool.and_eq_true, decide_eq_true_eq] at hpart
  exact absurd (List.all_eq_true.mp hpart.2 ':' hmem) (by decide)

theorem matchesIpv6_chars (h : matchesIpv6 e = true) : '.' ∉ e ∧ '%' ∉ e := by
  unfold matchesIpv6 at h
  rw [Bool.and_eq_true] at h
  exact ⟨fun hc => absurd (List.all_eq_true.mp h.2 '.' hc) (by decide),
    fun hc => absurd (List.all_eq_true.mp h.2 '%' hc) (by decide)⟩

/-! What an IPv6 address is written with. -/

theorem ipv6Char_of_hexGroup {p : List Char} (h : (hexGroup p).isSome) :
    ∀ c ∈ p, ipv6Char c = true := by
  unfold hexGroup at h
  dsimp only at h
  split_ifs at h with hhex
  · intro c hc
    simp only [Bool.and_eq_true] at hhex
    have hdigit := List.all_eq_true.mp hhex.1.1 c hc
    unfold ipv6Char
    rw [hdigit, Bool.true_or]
  · cases h

theorem mem_of_mem_splitOn {sep c : Char} {s p : List Char} (hp : p ∈ s.splitOn sep)
    (hc : c ∈ p) : c ∈ s := by
  induction s generalizing p with
  | nil =>
    rw [List.splitOn_nil, List.mem_singleton] at hp
    rwa [hp] at hc
  | cons a s ih =>
    rw [List.splitOn_cons_eq_if_modifyHead] at hp
    split_ifs at hp
    · rcases List.mem_cons.mp hp with rfl | hp
      · cases hc
      · exact List.mem_cons_of_mem _ (ih hp hc)
    · obtain ⟨q, qs, hsplit⟩ := List.exists_cons_of_ne_nil (List.splitOn_ne_nil sep s)
      rw [hsplit, List.modifyHead_cons] at hp
      rcases List.mem_cons.mp hp with rfl | hp
      · rcases List.mem_cons.mp hc with rfl | hc
        · exact List.mem_cons_self
        · exact List.mem_cons_of_mem _ (ih (hsplit ▸ List.mem_cons_self) hc)
      · exact List.mem_cons_of_mem _ (ih (hsplit ▸ List.mem_cons_of_mem _ hp) hc)

theorem length_splitOn_of_notMem {sep : Char} {s : List Char} (h : sep ∉ s) :
    (s.splitOn sep).length = 1 := by
  have hcount : s.countP (· == sep) = 0 :=
    List.countP_eq_zero.mpr fun c hc => by simpa using ne_of_mem_of_not_mem hc h
  have hlen := length_splitOnP (· == sep) s
  rwa [hcount] at hlen

theorem dot_of_quad {p : List Char} (h : (parseIPv4 (String.ofList p)).isSome) : '.' ∈ p := by
  have hmatch := matchesIpv4_of_quad h
  unfold matchesIpv4 at hmatch
  rw [Bool.and_eq_true] at hmatch
  by_contra hdot
  rw [length_splitOn_of_notMem hdot] at hmatch
  exact absurd hmatch.1 (by decide)

/-- Without a dot in them, the groups are hexadecimal. -/
theorem ipv6Char_of_groups {tail : Bool} {l : List (List Char)}
    (h : (ipv6Groups tail l).isSome) (hdot : ∀ p ∈ l, '.' ∉ p) :
    ∀ p ∈ l, ∀ c ∈ p, ipv6Char c = true := by
  induction l with
  | nil => exact fun p hp => absurd hp List.not_mem_nil
  | cons p ps ih =>
    have hrest : ∀ q ∈ ps, '.' ∉ q := fun q hq => hdot q (List.mem_cons_of_mem _ hq)
    have hgroups : (hexGroup p).isSome ∧ (ipv6Groups tail ps).isSome := by
      cases ps with
      | nil =>
        have hquad : parseIPv4 (String.ofList p) = none := by
          by_contra hsome
          exact hdot p List.mem_cons_self (dot_of_quad (Option.isSome_iff_ne_none.mpr hsome))
        simp only [ipv6Groups, hquad] at h
        exact ⟨by simpa using h, rfl⟩
      | cons q qs =>
        rw [ipv6Groups] at h
        · cases hg : hexGroup p with
          | none => simp [hg] at h
          | some g =>
            cases hgs : ipv6Groups tail (q :: qs) with
            | none => simp [hg, hgs] at h
            | some gs => exact ⟨rfl, rfl⟩
        · exact List.cons_ne_nil _ _
    intro q hq
    rcases List.mem_cons.mp hq with rfl | hq
    · exact ipv6Char_of_hexGroup hgroups.1
    · exact ih hgroups.2 hrest q hq

theorem splitCompressed_eq {s left right : List Char} (h : splitCompressed s = some (left, right)) :
    s = left ++ [':', ':'] ++ right := by
  induction s generalizing left with
  | nil => cases h
  | cons c s ih =>
    unfold splitCompressed at h
    split at h
    · next rest heq =>
      obtain ⟨rfl, rfl⟩ := Prod.mk.inj (Option.some.inj h)
      rw [heq]
      rfl
    · next d rest _ heq =>
      obtain ⟨rfl, rfl⟩ := List.cons.inj heq
      obtain ⟨⟨left', right'⟩, hrest, hpair⟩ := Option.map_eq_some_iff.mp h
      obtain ⟨rfl, rfl⟩ := Prod.mk.inj hpair
      rw [ih hrest]
      rfl
    · next heq => cases heq

/-- one side of a `::`, or a whole address without it -/
def ipv6Side (tail : Bool) (x : List Char) : Option (List ℕ) :=
  if x = [] then some [] else ipv6Groups tail (x.splitOn ':')

theorem ipv6Char_of_side {tail : Bool} {x : List Char} (h : (ipv6Side tail x).isSome)
    (hdot : '.' ∉ x) : ∀ c ∈ x, ipv6Char c = true := by
  intro c hc
  unfold ipv6Side at h
  rw [if_neg (List.ne_nil_of_mem hc)] at h
  by_cases hcolon : c = ':'
  · rw [hcolon]
    rfl
  · obtain ⟨p, hp, hmem⟩ := mem_splitOn hc hcolon
    exact ipv6Char_of_groups h (fun q hq hq' => hdot (mem_of_mem_splitOn hq hq')) p hp c hmem

/-- An address is eight groups, or two lists of them around a `::`. -/
theorem parseIPv6_cases (hzone : '%' ∉ e) (h : (parseIPv6 (String.ofList e)).isSome) :
    (∃ groups, ipv6Side true e = some groups ∧ groups.length = 8) ∨
      ∃ left right, e = left ++ [':', ':'] ++ right ∧ (ipv6Side false left).isSome ∧
        (ipv6Side true right).isSome := by
  have htext : (String.ofList e).toList.takeWhile (· ≠ '%') = e := by
    rw [String.toList_ofList]
    exact List.takeWhile_eq_self_iff.mpr fun c hc => by simpa using ne_of_mem_of_not_mem hc hzone
  unfold parseIPv6 at h
  rw [htext] at h
  dsimp only at h
  split at h
  · next hnone =>
    split at h
    · next groups hgroups =>
      split_ifs at h with hlen
      · exact Or.inl ⟨groups, hgroups, hlen⟩
      · cases h
    · cases h
  · next left right hsplit =>
    split at h
    · next l r hl hr =>
      exact Or.inr ⟨left, right, splitCompressed_eq hsplit, Option.isSome_iff_exists.mpr ⟨l, hl⟩,
        Option.isSome_iff_exists.mpr ⟨r, hr⟩⟩
    · cases h

/-- Without a dotted tail an address has hexadecimal digits and colons only. -/
theorem matchesIpv6_of_address (hzone : '%' ∉ e) (h : (parseIPv6 (String.ofList e)).isSome)
    (hdot : '.' ∉ e) : matchesIpv6 e = true := by
  have hchars : e ≠ [] ∧ ∀ c ∈ e, ipv6Char c = true := by
    rcases parseIPv6_cases hzone h with ⟨groups, hgroups, hlen⟩ | ⟨left, right, heq, hl, hr⟩
    · refine ⟨?_, ipv6Char_of_side (by rw [hgroups]; rfl) hdot⟩
      rintro rfl
      obtain rfl := Option.some.inj hgroups
      cases hlen
    · subst heq
      refine ⟨by simp, fun c hc => ?_⟩
      have hleft : '.' ∉ left := fun hc => hdot (by simp [hc])
      have hright : '.' ∉ right := fun hc => hdot (by simp [hc])
      rcases List.mem_append.mp hc with hc | hc
      · rcases List.mem_append.mp hc with hc | hc
        · exact ipv6Char_of_side hl hleft c hc
        · obtain rfl : c = ':' := by simpa using hc
          rfl
      · exact ipv6Char_of_side hr hright c hc
  unfold matchesIpv6
  rw [Bool.and_eq_true]
  refine ⟨?_, List.all_eq_true.mpr hchars.2⟩
  rw [Bool.not_eq_true', List.isEmpty_eq_false_iff]
  exact hchars.1

theorem length_groups_le {tail : Bool} {l : List (List Char)} {gs : List ℕ}
    (h : ipv6Groups tail l = some gs) : gs.length ≤ l.length + 1 := by
  induction l generalizing gs with
  | nil =>
    obtain rfl := Option.some.inj h
    exact Nat.zero_le _
  | cons p ps ih =>
    cases ps with
    | nil =>
      unfold ipv6Groups at h
      split at h
      · obtain rfl := Option.some.inj h
        exact le_rfl
      · obtain ⟨g, -, rfl⟩ := Option.map_eq_some_iff.mp h
        exact Nat.le_succ 1
    | cons q qs =>
      rw [ipv6Groups] at h
      · split at h
        · next g gs' _ hgs =>
          obtain rfl := Option.some.inj h
          exact Nat.succ_le_succ (ih hgs)
        · cases h
      · exact List.cons_ne_nil _ _

/-- An address has a colon. -/
theorem colon_of_address (hzone : '%' ∉ e) (h : (parseIPv6 (String.ofList e)).isSome) :
    ':' ∈ e := by
  rcases parseIPv6_cases hzone h with ⟨groups, hgroups, hlen⟩ | ⟨left, right, heq, -, -⟩
  · by_contra hcolon
    unfold ipv6Side at hgroups
    split_ifs at hgroups
    · obtain rfl := Option.some.inj hgroups
      cases hlen
    · have hle := length_groups_le hgroups
      rw [length_splitOn_of_notMem hcolon, hlen] at hle
      omega
  · simp [heq]

/-- The regular expressions accept what the grammars do, apart from quads with a number above 255
or a leading zero, digits and colons that are no address, and addresses with a dotted tail. -/
theorem isValidIp_iff : (isValidIp e = true ↔ IpAddress e) ↔
    (matchesIpv4 e = true → (parseIPv4 (String.ofList e)).isSome) ∧
      (matchesIpv6 e = true → (parseIPv6 (String.ofList e)).isSome) ∧
      ('.' ∈ e → '%' ∉ e → (parseIPv6 (String.ofList e)).isSome = false) := by
  unfold isValidIp IpAddress
  rw [Bool.or_eq_true]
  constructor
  · intro h
    refine ⟨fun h4 => ?_, fun h6 => ?_, fun hdot hzone => ?_⟩
    · exact (h.mp (Or.inl h4)).resolve_right fun haddress =>
        matchesIpv4_chars h4 (colon_of_address haddress.1 haddress.2)
    · exact ((h.mp (Or.inr h6)).resolve_left fun hquad =>
        (matchesIpv6_chars h6).1 (dot_of_quad hquad)).2
    · rw [← Bool.not_eq_true]
      intro haddress
      rcases h.mpr (Or.inr ⟨hzone, haddress⟩) with h4 | h6
      · exact matchesIpv4_chars h4 (colon_of_address hzone haddress)
      · exact (matchesIpv6_chars h6).1 hdot
  · rintro ⟨h4, h6, hdotted⟩
    constructor
    · rintro (h | h)
      · exact Or.inl (h4 h)
      · exact Or.inr ⟨(matchesIpv6_chars h).2, h6 h⟩
    · rintro (h | ⟨hzone, haddress⟩)
      · exact Or.inl (matchesIpv4_of_quad h)
      · refine Or.inr (matchesIpv6_of_address hzone haddress fun hdot => ?_)
        exact Bool.noConfusion (haddress.symm.trans (hdotted hdot hzone))

theorem not_isValidIp_nil : isValidIp [] = false := by decide

/-- `extractIp` as the choice it makes. -/
theorem extractIp_eq {req : Request} {value : HeaderValue}
    (h : req.headers.lookup "x-forwarded-for" = some value) :
    extractIp req = if isValidIp (firstForwarded value) then String.ofList (firstForwarded value)
      else orElse req.remoteAddress "unknown" := by
  unfold extractIp
  rw [h]
  dsimp only
  refine if_congr ?_ rfl rfl
  rw [Bool.and_eq_true, Bool.and_eq_true]
  refine ⟨fun hall => hall.2, fun hvalid => ⟨⟨?_, ?_⟩, hvalid⟩⟩
  · cases value with
    | many vs => rfl
    | one v =>
      refine bne_iff_ne.mpr ?_
      rintro rfl
      exact Bool.noConfusion (hvalid.symm.trans not_isValidIp_nil)
  · rw [Bool.not_eq_true', List.isEmpty_eq_false_iff]
    intro hnil
    rw [hnil] at hvalid
    exact Bool.noConfusion (hvalid.symm.trans not_isValidIp_nil)

/-- The forwarded entry is taken over exactly if it is an IP address, apart from these entries and
from a socket address of the same text. -/
theorem extractIp_exact_iff (req : Request) (value : HeaderValue) (_hvalue : value ≠ .many [])
    (h : req.headers.lookup "x-forwarded-for" = some value) :
    extractIp req = (if IpAddress (firstForwarded value) then String.ofList (firstForwarded value)
      else orElse req.remoteAddress "unknown") ↔
    orElse req.remoteAddress "unknown" = String.ofList (firstForwarded value) ∨
      (matchesIpv4 (firstForwarded value) = true →
        (parseIPv4 (String.ofList (firstForwarded value))).isSome) ∧
      (matchesIpv6 (firstForwarded value) = true →
        (parseIPv6 (String.ofList (firstForwarded value))).isSome) ∧
      ('.' ∈ firstForwarded value → '%' ∉ firstForwarded value →
        (parseIPv6 (String.ofList (firstForwarded value))).isSome = false) := by
  rw [← isValidIp_iff, extractIp_eq h]
  by_cases hvalid : isValidIp (firstForwarded value) = true
  · rw [if_pos hvalid]
    by_cases haddress : IpAddress (firstForwarded value)
    · simp [hvalid, haddress]
    · simp [hvalid, haddress, eq_comm]
  · rw [if_neg hvalid]
    by_cases haddress : IpAddress (firstForwarded value)
    · simp [hvalid, haddress]
    · simp [hvalid, haddress]

/-- a request that comes from a proxy at `10.0.0.7` -/
def forwardedFor (entry : String) : Request :=
  { method := "GET", originalUrl := some "/users/1",
    headers := [("x-forwarded-for", .one entry)], remoteAddress := some "10.0.0.7" }

theorem extractIp_exact_sample :
    extractIp (forwardedFor " 203.0.113.9, 10.0.0.1") =
      if IpAddress (firstForwarded (.one " 203.0.113.9, 10.0.0.1")) then
        String.ofList (firstForwarded (.one " 203.0.113.9, 10.0.0.1"))
      else orElse (some "10.0.0.7") "unknown" :=
  (extractIp_exact_iff (forwardedFor " 203.0.113.9, 10.0.0.1") (.one " 203.0.113.9, 10.0.0.1")
    (by simp) rfl).mpr (Or.inr (by decide +kernel))

/-- Numbers up to 999 and any hexadecimal word are taken over, a mapped address is not. -/
theorem extractIp_inexact :
    ["999.1.1.1", "beef", "::ffff:203.0.113.9"].map (fun entry => extractIp (forwardedFor entry)) =
        ["999.1.1.1", "beef", "10.0.0.7"] ∧
      ∀ entry ∈ ["999.1.1.1", "beef", "::ffff:203.0.113.9"],
        extractIp (forwardedFor entry) ≠ if IpAddress (firstForwarded (.one entry)) then
          String.ofList (firstForwarded (.one entry)) else "10.0.0.7" := by
  decide +kernel

end ZTG
