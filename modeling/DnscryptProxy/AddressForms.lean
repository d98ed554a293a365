import DnscryptProxy.AddressRules
import DnscryptProxy.AddressText

/-! The forms in which an address can be written in a rule of `PluginBlockIP` or
`PluginAllowedIP`. A line is stored as it is written, in lower case and without a separator at its
end, and is compared with the text that `IP.string` makes of the address of a record.
`form_found_iff` says that the form has to be that text. -/

namespace DnscryptProxy

open Library

/-- The characters of the texts that `net.ParseIP` accepts. -/
def addressChars : List Char := "0123456789abcdefABCDEF.:".toList

/-- `::` is the shortest text that `net.ParseIP` accepts. -/
def NetLibrary.Textual (net : NetLibrary) : Prop :=
  ∀ text ip, net.parseIP text = some ip → 2 ≤ text.length ∧ ∀ c ∈ text, c ∈ addressChars

/-- Some class-IN record of type A or AAAA has the address, as four bytes or as sixteen. -/
def CarriesAddress (answers : List RR) (ip : IP) : Prop :=
  ∃ rr ∈ answers, rr.cls = classINET ∧
    ∃ addr, (rr.data = .a addr ∨ rr.data = .aaaa addr) ∧ IP.to16 addr = some ip

/-- The line is stored as the text of the address. -/
def StoredAs (toLower : Text → Text) (text : Text) (ip : IP) : Prop :=
  toLower (dropSeparator text) = IP.string ip

/-! ## Lines that are addresses -/

section Line

variable {net : NetLibrary} {text : Text} {ip : IP}

/-- A character that means something in a file of rules besides being part of an address. -/
def isMarkup (c : Char) : Bool := c = '#' || c = '*' || c = '\n' || isSpace c

theorem not_isMarkup {c : Char} (h : c ∈ addressChars) : isMarkup c = false := by
  have hall : addressChars.all (fun c => !isMarkup c) = true := by decide
  have hc := List.all_eq_true.mp hall c h
  simpa using hc

theorem dropWhile_of_none {p : Char → Bool} (h : ∀ c ∈ text, p c = false) :
    text.dropWhile p = text := by
  cases text with
  | nil => rfl
  | cons c text => rw [List.dropWhile_cons_of_neg (by simp [h c List.mem_cons_self])]

theorem trimSpace_of_none (h : ∀ c ∈ text, isSpace c = false) : trimSpace text = text := by
  unfold trimSpace
  rw [dropWhile_of_none h, dropWhile_of_none fun c hc => h c (List.mem_reverse.mp hc),
    List.reverse_reverse]

theorem length_le_byteLength (str : Text) : str.length ≤ byteLength str := by
  have hfrom (n : Nat) : n + str.length ≤ str.foldl (fun n c => n + c.utf8Size) n := by
    induction str generalizing n with
    | nil => exact Nat.le_refl _
    | cons c str ih =>
      have hc := c.utf8Size_pos
      have htail := ih (n + c.utf8Size)
      rw [List.length_cons, List.foldl_cons]
      omega
  have hzero := hfrom 0
  rwa [Nat.zero_add] at hzero

theorem ipRule_of_parseIP (hnet : net.Textual) (h : net.parseIP text = some ip) :
    ipRule net text = some ⟨text, false⟩ := by
  obtain ⟨hlen, hchars⟩ := hnet text ip h
  have hplain (c : Char) (hc : c ∈ text) : isMarkup c = false := not_isMarkup (hchars c hc)
  have hnot {c : Char} (hc : isMarkup c = true) : c ∉ text := fun hmem =>
    Bool.false_ne_true ((hplain c hmem).symm.trans hc)
  have hspace (c : Char) (hc : c ∈ text) : isSpace c = false := by
    have := hplain c hc
    simp only [isMarkup, Bool.or_eq_false_iff] at this
    exact this.2
  have htrim : trimAndStripInlineComments text = text := by
    unfold trimAndStripInlineComments
    rw [if_neg (by simpa using hnot (c := '#') (by decide)), trimSpace_of_none hspace]
  have hne : text ≠ [] := by
    rintro rfl
    cases hlen
  have hstar : decide (text.getLast? = some '*') = false := by
    refine decide_eq_false fun hlast => ?_
    exact hnot (c := '*') (by decide) (List.mem_of_getLast? hlast)
  have hbytes : ¬ byteLength text < 2 := by
    have := length_le_byteLength text
    omega
  have hcut : dropSeparator text ≠ [] := by
    unfold dropSeparator
    split
    · rw [← List.length_pos_iff, List.length_dropLast]
      omega
    · exact hne
  have hdropped : '*' ∉ dropSeparator text := by
    unfold dropSeparator
    split
    · exact fun hmem => hnot (c := '*') (by decide) (List.mem_of_mem_dropLast hmem)
    · exact hnot (by decide)
  unfold ipRule
  rw [htrim]
  rw [if_neg hne, hstar]
  simp [hbytes, hcut, hdropped]

theorem not_newline_mem (hnet : net.Textual) (h : net.parseIP text = some ip) : '\n' ∉ text :=
  fun hmem => absurd (not_isMarkup ((hnet text ip h).2 _ hmem)) (by decide)

theorem string_of_to16 {addr : IP} (h : IP.to16 addr = some ip) : IP.string addr = IP.string ip := by
  unfold IP.to16 at h
  split at h
  · next hfour =>
    cases h
    have h4 : IP.to4 (IP.v4InV6Prefix ++ addr) = some addr := by
      simp [IP.to4, IP.v4InV6Prefix, hfour]
    exact IP.string_to4 (by simp [IP.v4InV6Prefix, hfour]) h4
  · split at h
    · cases h
      rfl
    · cases h

theorem CarriesAddress.string_mem {answers : List RR} (h : CarriesAddress answers ip) :
    IP.string ip ∈ addresses answers := by
  obtain ⟨rr, hrr, hcls, addr, hdata, h16⟩ := h
  refine List.mem_filterMap.mpr ⟨rr, hrr, ?_⟩
  unfold RR.ipStr
  rw [if_neg (not_not.mpr hcls), ← string_of_to16 h16]
  rcases hdata with hdata | hdata <;> rw [hdata]

end Line

/-! ## The forms that are found -/

section Forms

variable {toLower : Text → Text} {net : NetLibrary} {text : Text} {ip : IP}

theorem found_of_storedAs (hnet : net.Textual) (h : net.parseIP text = some ip) {bin : Text}
    (hline : text ∈ bin.splitOn '\n') (hstored : StoredAs toLower text ip) :
    AddressFound toLower (ipRules net bin) (IP.string ip) := by
  refine .inl ⟨⟨text, false⟩, ?_, rfl, hstored.symm⟩
  exact List.mem_filterMap.mpr ⟨text, hline, ipRule_of_parseIP hnet h⟩

theorem storedAs_of_found (hnet : net.Textual) (h : net.parseIP text = some ip)
    (hfound : AddressFound toLower (ipRules net text) (IP.string ip)) : StoredAs toLower text ip := by
  have hrules : ipRules net text = [⟨text, false⟩] := by
    unfold ipRules
    rw [splitOn_of_not_mem (not_newline_mem hnet h), List.filterMap_cons_some (ipRule_of_parseIP hnet h)]
    rfl
  rw [hrules] at hfound
  rcases hfound with ⟨r, hr, -, hline⟩ | ⟨p, ⟨hmem, -⟩, -⟩
  · rw [List.mem_singleton.mp hr] at hline
    exact hline.symm
  · cases hmem

/-- **Forms of addresses.** A line with an address makes the one plugin reject, and the other
one let through, every response with the address, in every file it stands in, exactly when the
line is stored as the text of the address. -/
theorem form_found_iff (hnet : net.Textual) (h : net.parseIP text = some ip) :
    (∀ bin logFile ctx, text ∈ bin.splitOn '\n' → (∃ client, ctx.st.clientIPStr = .ok client) →
      CarriesAddress ctx.msg.answer ip →
      (ctx.st.whitelisted = false →
        Rejects (blockIPEval (blockIPInit toLower net bin logFile) ctx)) ∧
      Whitelists (allowedIPEval (allowedIPInit toLower net bin logFile) ctx)) ↔
    StoredAs toLower text ip := by
  constructor
  · intro hall
    -- a file with this line, and a response with this record
    have hsplit : text ∈ text.splitOn '\n' := by
      rw [splitOn_of_not_mem (not_newline_mem hnet h)]
      exact List.mem_singleton_self text
    have hcarries : CarriesAddress (Sample.addressReply (.aaaa ip)).msg.answer ip := by
      refine ⟨_, List.mem_singleton_self _, rfl, ip, .inr rfl, ?_⟩
      have hlen := net.parseIP_length text ip h
      simp [IP.to16, hlen]
    have hwhitelists := (hall text [] (Sample.addressReply (.aaaa ip)) hsplit ⟨_, rfl⟩ hcarries).2
    have hhits := (allowedIPEval_whitelists_iff rfl ⟨_, rfl⟩).mp hwhitelists
    obtain ⟨ipStr, hmem, hfound⟩ := (hits_iff toLower net text [] _).mp hhits
    have hipStr : addresses (Sample.addressReply (.aaaa ip)).msg.answer = [IP.string ip] := rfl
    rw [hipStr, List.mem_singleton] at hmem
    exact storedAs_of_found hnet h (hmem ▸ hfound)
  · intro hstored bin logFile ctx hline hclient hcarries
    have hhits : (loadIPRules toLower net bin logFile).hits ctx.msg.answer = true :=
      (hits_iff toLower net bin logFile _).mpr
        ⟨IP.string ip, hcarries.string_mem, found_of_storedAs hnet h hline hstored⟩
    exact ⟨fun hwhite => rejects_of_hits hwhite hclient hhits, whitelists_of_hits hclient hhits⟩

end Forms

namespace Sample

def documented : IP := [0x20, 1, 0xd, 0xb8, 0, 0, 0, 0, 0, 0, 0, 0, 0, 0, 0, 1]

/-- A parser that knows two forms of one address. -/
def formsNet : NetLibrary :=
  netOf [("2001:DB8::1".toList, documented), ("2001:0db8::1".toList, documented)] (by decide)

theorem formsNet_textual : formsNet.Textual := by
  intro text ip h
  have htext : text = "2001:DB8::1".toList ∨ text = "2001:0db8::1".toList :=
    (List.mem_pair.mp (mem_of_parsed h)).imp (congrArg Prod.fst) (congrArg Prod.fst)
  have hall {t : Text} (h : t.all (addressChars.contains ·) = true) : ∀ c ∈ t, c ∈ addressChars := by
    simpa using h
  rcases htext with rfl | rfl
  · exact ⟨by decide, hall (by decide)⟩
  · exact ⟨by decide, hall (by decide)⟩

theorem upper_case_form_found :
    formsNet.parseIP "2001:DB8::1".toList = some documented ∧
      StoredAs PatternMatcher.asciiLower "2001:DB8::1".toList documented ∧
      Rejects (blockIPEval (blockIPInit PatternMatcher.asciiLower formsNet "2001:DB8::1".toList [])
        (addressReply (.aaaa documented))) := by
  have hstored : StoredAs PatternMatcher.asciiLower "2001:DB8::1".toList documented := by
    unfold StoredAs
    decide
  refine ⟨rfl, hstored, ?_⟩
  have hfound := (@form_found_iff PatternMatcher.asciiLower formsNet _ documented formsNet_textual
    rfl).mpr hstored
  exact (hfound "2001:DB8::1".toList [] (addressReply (.aaaa documented)) (by decide) ⟨_, rfl⟩
    ⟨_, List.mem_singleton_self _, rfl, documented, .inr rfl, rfl⟩).1 rfl

/-- The same address with a leading zero is stored as another text. -/
theorem leading_zero_form_missed :
    formsNet.parseIP "2001:0db8::1".toList = some documented ∧
      CarriesAddress (addressReply (.aaaa documented)).msg.answer documented ∧
      ¬ Rejects (blockIPEval (blockIPInit PatternMatcher.asciiLower formsNet "2001:0db8::1".toList [])
        (addressReply (.aaaa documented))) ∧
      ¬ Whitelists (allowedIPEval (allowedIPInit PatternMatcher.asciiLower formsNet
        "2001:0db8::1".toList []) (addressReply (.aaaa documented))) := by
  have hhits : (loadIPRules PatternMatcher.asciiLower formsNet "2001:0db8::1".toList []).hits
      (addressReply (.aaaa documented)).msg.answer = false := by decide
  refine ⟨rfl, ⟨_, List.mem_singleton_self _, rfl, documented, .inr rfl, rfl⟩, ?_, ?_⟩
  · exact mt (blockIPEval_rejects_iff rfl (by decide) ⟨_, rfl⟩).mp (Bool.eq_false_iff.mp hhits)
  · exact mt (allowedIPEval_whitelists_iff rfl ⟨_, rfl⟩).mp (Bool.eq_false_iff.mp hhits)

end Sample

end DnscryptProxy
