import DnscryptProxy.AddressForms
import DnscryptProxy.InlineComments

/-! `PluginForward.Init`: the lines of a file of forwarding rules become entries with the servers
for a domain. A server is an IPv4 address, or an IPv6 address in brackets, with a port or without.
The default port is added to what `net.ParseIP` accepts, which accepts no brackets.
`servers_split_iff` says for which files every server is stored with its host and port. -/

namespace DnscryptProxy

open Library

/-! ## Lines -/

/-- The bytes of a character after the first one are no text by themselves. -/
def dropByte (c : Char) (rest : Text) : Text :=
  List.replicate (c.utf8Size - 1) (Char.ofNat 0xfffd) ++ rest

def stringTwoFields (str : Text) : Option (Text × Text) :=
  if byteLength str < 3 then none
  else match str.dropWhile fun c => !isSpace c with
    | [] => none
    | space :: rest =>
      let a := trimSpace (str.takeWhile fun c => !isSpace c)
      let b := trimSpace (dropByte space rest)
      if a = [] || b = [] then none else some (a, b)

section Init

variable (net : NetLibrary) (toLower : Text → Text)

/-- The loop over the servers of a rule. -/
def forwardServers (serversStr : Text) : List Text :=
  (serversStr.splitOn ',').map fun server =>
    let server := trimSpace server
    if (net.parseIP server).isSome then server ++ ":53".toList else server

/-- One turn of the loop over the lines. -/
def forwardLine (lineNo : Nat) (line : Text) : Except GoError (Option ForwardEntry) :=
  let line := trimAndStripInlineComments line
  if line = [] then .ok none
  else match stringTwoFields line with
    | none => .error (.plain ("Syntax error for a forwarding rule at line " ++ toString lineNo ++
        ". Expected syntax: example.com 9.9.9.9,8.8.8.8"))
    | some (domain, serversStr) => .ok (some ⟨toLower domain, forwardServers net serversStr⟩)

/-- `Init`, for a file that can be read. -/
def forwardInit (bin : Text) : Except GoError (List ForwardEntry) := do
  let entries ← (bin.splitOn '\n').zipIdx.mapM fun (line, i) => forwardLine net toLower (i + 1) line
  return entries.reduceOption

end Init

/-! ## Addresses with a port -/

/-- `net.SplitHostPort`, which is called to dial an address. -/
def splitHostPort (hostport : Text) : Except GoError (Text × Text) :=
  let addrErr := fun why =>
    Except.error (.net ("address " ++ String.ofList hostport ++ ": " ++ why) false)
  let port := (hostport.reverse.takeWhile (· ≠ ':')).reverse
  if !hostport.contains ':' then addrErr "missing port in address"
  else
    let i := hostport.length - port.length - 1
    if hostport.head? = some '[' then
      let host := hostport.takeWhile (· ≠ ']')
      if !hostport.contains ']' then addrErr "missing ']' in address"
      else if host.length + 1 = hostport.length then addrErr "missing port in address"
      else if host.length + 1 ≠ i then
        if hostport[host.length + 1]? = some ':' then addrErr "too many colons in address"
        else addrErr "missing port in address"
      else if (hostport.drop 1).contains '[' then addrErr "unexpected '[' in address"
      else if (hostport.drop (host.length + 1)).contains ']' then
        addrErr "unexpected ']' in address"
      else .ok (host.drop 1, port)
    else
      let host := hostport.take i
      if host.contains ':' then addrErr "too many colons in address"
      else if hostport.contains '[' then addrErr "unexpected '[' in address"
      else if hostport.contains ']' then addrErr "unexpected ']' in address"
      else .ok (host, port)

example : splitHostPort "192.0.2.1:53".toList = .ok ("192.0.2.1".toList, "53".toList) := by decide
example : splitHostPort "[2001:db8::1]:53".toList = .ok ("2001:db8::1".toList, "53".toList) := by
  decide

section Split

variable {host port : Text}

theorem last_colon (hport : ':' ∉ port) :
    ((host ++ ':' :: port).reverse.takeWhile (· ≠ ':')).reverse = port ∧
      (host ++ ':' :: port).length - port.length - 1 = host.length := by
  rw [takeWhile_reverse_append hport, List.reverse_reverse]
  refine ⟨rfl, ?_⟩
  simp only [List.length_append, List.length_cons]
  omega

theorem splitHostPort_plain (hcolon : ':' ∉ host) (hport : ':' ∉ port) (hopen : '[' ∉ host ++ port)
    (hclose : ']' ∉ host ++ port) : splitHostPort (host ++ ':' :: port) = .ok (host, port) := by
  have hhead : (host ++ ':' :: port).head? ≠ some '[' := by
    cases host with
    | nil => simp
    | cons c host =>
      rintro heq
      cases heq
      exact hopen List.mem_cons_self
  have hopen' : '[' ∉ host ++ ':' :: port := by simpa using hopen
  have hclose' : ']' ∉ host ++ ':' :: port := by simpa using hclose
  unfold splitHostPort
  simp only [last_colon hport]
  rw [if_neg (by simp), if_neg hhead, List.take_left' rfl, if_neg (by simpa using hcolon),
    if_neg (by simpa using hopen'), if_neg (by simpa using hclose')]

theorem takeWhile_bracketed (hclose : ']' ∉ host) (rest : Text) :
    ('[' :: host ++ ']' :: rest).takeWhile (· ≠ ']') = '[' :: host :=
  takeWhile_append_sep (by simpa using hclose) rest

theorem splitHostPort_bracketed (hport : ':' ∉ port) (hopen : '[' ∉ host ++ port)
    (hclose : ']' ∉ host ++ port) :
    splitHostPort ('[' :: host ++ ']' :: ':' :: port) = .ok (host, port) := by
  have hinner := takeWhile_bracketed (fun h => hclose (List.mem_append_left _ h)) (':' :: port)
  have hsplit : '[' :: host ++ ']' :: ':' :: port = ('[' :: host ++ [']']) ++ ':' :: port := by simp
  unfold splitHostPort
  rw [hinner, hsplit]
  simp only [last_colon hport]
  have hhead : (('[' :: host ++ [']']) ++ ':' :: port).head? = some '[' := rfl
  have hlen : ('[' :: host).length + 1 = ('[' :: host ++ [']']).length := by simp
  have hshort : ('[' :: host).length + 1 ≠ (('[' :: host ++ [']']) ++ ':' :: port).length := by
    simp only [List.length_append, List.length_cons]
    omega
  have hopen' : '[' ∉ ((('[' :: host ++ [']']) ++ ':' :: port).drop 1) := by simpa using hopen
  have hclose' : ']' ∉ ':' :: port := by
    simpa using fun h => hclose (List.mem_append_right _ h)
  rw [if_neg (by simp), if_pos hhead, if_neg (by simp), if_neg hshort, if_neg (not_not.mpr hlen),
    if_neg (by simpa using hopen'), hlen, List.drop_left, if_neg (by simpa using hclose')]
  rfl

theorem splitHostPort_brackets (hclose : ']' ∉ host) :
    ∃ e, splitHostPort ('[' :: host ++ [']']) = .error e := by
  have hhead : ('[' :: host ++ [']']).head? = some '[' := rfl
  have hcontains : ¬(!('[' :: host ++ [']']).contains ']') = true := by simp
  have hlen : ('[' :: host).length + 1 = ('[' :: host ++ [']']).length := by simp
  unfold splitHostPort
  dsimp only
  rw [takeWhile_bracketed hclose, if_pos hhead, if_neg hcontains, if_pos hlen]
  split <;> exact ⟨_, rfl⟩

end Split

/-! ## Rules -/

/-- A server of a rule, by its address and its port. -/
inductive ForwardServer where
  | ipv4 (host : Text) (port : Option Text)
  | ipv6 (host : Text) (port : Option Text)
  deriving DecidableEq, Repr

namespace ForwardServer

def host : ForwardServer → Text
  | ipv4 host _ => host
  | ipv6 host _ => host

def port : ForwardServer → Option Text
  | ipv4 _ port => port
  | ipv6 _ port => port

def portText (port : Option Text) : Text := (port.map (':' :: ·)).getD []

/-- How a server is written. -/
def text : ForwardServer → Text
  | ipv4 host port => host ++ portText port
  | ipv6 host port => '[' :: host ++ ']' :: portText port

/-- What a server is stored as. -/
def stored : ForwardServer → Text
  | ipv4 host port => host ++ ':' :: port.getD "53".toList
  | ipv6 host port => '[' :: host ++ ']' :: portText port

variable (net : NetLibrary) in
def Written (server : ForwardServer) : Prop :=
  (net.parseIP server.host).isSome ∧
    (∀ port, server.port = some port → port ≠ [] ∧ ∀ c ∈ port, c ∈ "0123456789".toList) ∧
    match server with
    | ipv4 host _ => '.' ∈ host ∧ ':' ∉ host
    | ipv6 host _ => ':' ∈ host

/-- An address in brackets, without a port. -/
def Portless (server : ForwardServer) : Prop := ∃ host, server = ipv6 host none

end ForwardServer

/-- A rule `<domain> <server>[, <server>...]`, with the blanks before its first server, and before
and after every comma. -/
structure ForwardRule where
  domain : Text
  gap : Text
  first : ForwardServer
  others : List ((Text × Text) × ForwardServer)
  deriving DecidableEq, Repr

namespace ForwardRule

def servers (rule : ForwardRule) : List ForwardServer := rule.first :: rule.others.map Prod.snd

def otherText (other : (Text × Text) × ForwardServer) : Text :=
  other.1.1 ++ ',' :: (other.1.2 ++ other.2.text)

def serversText (rule : ForwardRule) : Text := rule.first.text ++ rule.others.flatMap otherText

def text (rule : ForwardRule) : Text := rule.domain ++ rule.gap ++ rule.serversText

/-- The syntax is the documented one. -/
structure Written (net : NetLibrary) (rule : ForwardRule) : Prop where
  domain : rule.domain ≠ [] ∧ ∀ c ∈ rule.domain, isSpace c = false
  gap : rule.gap ≠ [] ∧ rule.gap.all isBlank
  servers : ∀ server ∈ rule.servers, server.Written net
  blanks : ∀ other ∈ rule.others, other.1.1.all isBlank ∧ other.1.2.all isBlank

end ForwardRule

/-- A text with a dot before its first colon is no address. -/
def NetLibrary.DotsLast (net : NetLibrary) : Prop :=
  ∀ text ip, net.parseIP text = some ip → ':' ∈ text → '.' ∉ text.takeWhile (· ≠ ':')

section Rules

variable {net : NetLibrary} {toLower : Text → Text}

/-! ## Servers -/

theorem isSpace_of_isBlank {c : Char} (h : isBlank c) : isSpace c := by
  rcases (by simpa [isBlank] using h : c = ' ' ∨ c = '\t') with rfl | rfl <;> decide

theorem all_isSpace_of_isBlank {text : Text} (h : text.all isBlank) : text.all isSpace := by
  rw [List.all_eq_true] at h ⊢
  exact fun c hc => isSpace_of_isBlank (h c hc)

theorem mem_of_all_contains {text chars : Text} (h : text.all (chars.contains ·) = true) :
    ∀ c ∈ text, c ∈ chars := by
  simpa using h

/-- The characters in which addresses with ports are written. -/
def serverChars : List Char := "[]".toList ++ addressChars

namespace ForwardServer

variable {server : ForwardServer}

theorem Written.mem_host (h : server.Written net) (hnet : net.Textual) {c : Char}
    (hc : c ∈ server.host) : c ∈ addressChars := by
  obtain ⟨ip, hip⟩ := Option.isSome_iff_exists.mp h.1
  exact (hnet _ _ hip).2 c hc

theorem Written.mem_port (h : server.Written net) {port : Text} (hport : server.port = some port)
    {c : Char} (hc : c ∈ port) : c ∈ "0123456789".toList := (h.2.1 port hport).2 c hc

theorem Written.not_mem_port (h : server.Written net) {c : Char} (hc : c ∉ "0123456789".toList) :
    c ∉ server.port.getD "53".toList := by
  intro hmem
  cases hport : server.port with
  | none =>
    rw [hport] at hmem
    exact hc (mem_of_all_contains (by decide) c hmem)
  | some port =>
    rw [hport] at hmem
    exact hc (h.mem_port hport hmem)

theorem Written.mem_text (h : server.Written net) (hnet : net.Textual) {c : Char}
    (hc : c ∈ server.text) : c ∈ serverChars := by
  have hhost : c ∈ server.host → c ∈ serverChars := fun hc =>
    List.mem_append_right _ (h.mem_host hnet hc)
  have hport : c ∈ portText server.port → c ∈ serverChars := by
    intro hc
    have hall : ∀ c ∈ ':' :: "0123456789".toList, c ∈ serverChars := mem_of_all_contains (by decide)
    cases hport : server.port with
    | none =>
      rw [hport] at hc
      cases hc
    | some port =>
      rw [hport] at hc
      rcases List.mem_cons.mp hc with rfl | hc
      · exact hall ':' List.mem_cons_self
      · exact hall c (List.mem_cons_of_mem _ (h.mem_port hport hc))
  cases server with
  | ipv4 host port => exact (List.mem_append.mp hc).elim hhost hport
  | ipv6 host port =>
    rcases List.mem_cons.mp hc with rfl | hc
    · decide
    · rcases List.mem_append.mp hc with hc | hc
      · exact hhost hc
      · rcases List.mem_cons.mp hc with rfl | hc
        · decide
        · exact hport hc

theorem Written.text_ne_nil (h : server.Written net) : server.text ≠ [] := by
  cases server with
  | ipv4 host port => exact List.append_ne_nil_of_left_ne_nil (List.ne_nil_of_mem h.2.2.1) _
  | ipv6 host port => exact List.cons_ne_nil _ _

theorem Written.store (h : server.Written net) (hnet : net.Textual) (hdots : net.DotsLast) :
    (if (net.parseIP server.text).isSome then server.text ++ ":53".toList else server.text) =
      server.stored := by
  rcases server with ⟨host, _ | port⟩ | ⟨host, port⟩
  · have htext : text (ipv4 host none) = host := List.append_nil host
    have hparse : (net.parseIP host).isSome := h.1
    rw [htext, if_pos hparse]
    rfl
  · have hparse : net.parseIP (host ++ ':' :: port) = none := by
      by_contra hne
      obtain ⟨ip, hip⟩ := Option.ne_none_iff_exists'.mp hne
      have hdot := hdots _ _ hip (List.mem_append_right host List.mem_cons_self)
      rw [takeWhile_append_sep h.2.2.2] at hdot
      exact hdot h.2.2.1
    have htext : text (ipv4 host (some port)) = host ++ ':' :: port := rfl
    rw [htext, hparse]
    rfl
  · have hparse : net.parseIP (text (ipv6 host port)) = none := by
      by_contra hne
      obtain ⟨ip, hip⟩ := Option.ne_none_iff_exists'.mp hne
      exact absurd ((hnet _ _ hip).2 '[' List.mem_cons_self) (by decide)
    rw [hparse]
    rfl

theorem Written.split_iff (h : server.Written net) (hnet : net.Textual) :
    splitHostPort server.stored = .ok (server.host, server.port.getD "53".toList) ↔
      ¬server.Portless := by
  have hhost {c : Char} (hc : c ∉ addressChars) : c ∉ server.host := fun hmem =>
    hc (h.mem_host hnet hmem)
  have hboth {c : Char} (hc : c ∉ addressChars) (hdigit : c ∉ "0123456789".toList) :
      c ∉ server.host ++ server.port.getD "53".toList := fun hmem =>
    (List.mem_append.mp hmem).elim (hhost hc) (h.not_mem_port hdigit)
  have hcolon : ':' ∉ server.port.getD "53".toList := h.not_mem_port (by decide)
  have hopen := hboth (c := '[') (by decide) (by decide)
  have hclose := hboth (c := ']') (by decide) (by decide)
  rcases server with ⟨host, port⟩ | ⟨host, _ | port⟩
  · exact iff_of_true (splitHostPort_plain h.2.2.2 hcolon hopen hclose) nofun
  · obtain ⟨e, he⟩ : ∃ e, splitHostPort (stored (ipv6 host none)) = .error e :=
      splitHostPort_brackets (hhost (by decide))
    refine iff_of_false ?_ (not_not.mpr ⟨host, rfl⟩)
    rw [he]
    exact nofun
  · exact iff_of_true (splitHostPort_bracketed hcolon hopen hclose) nofun

end ForwardServer

/-! ## The fields of a rule -/

namespace ForwardRule

variable {rule : ForwardRule}

theorem not_isSpace_of_mem_serverChars {c : Char} (h : c ∈ serverChars) : isSpace c = false := by
  have hall : serverChars.all (fun c => !isSpace c) = true := by decide
  simpa using List.all_eq_true.mp hall c h

theorem serversText_ends (rule : ForwardRule) :
    ∃ init, ∃ server ∈ rule.servers, rule.serversText = init ++ server.text := by
  rcases List.eq_nil_or_concat' rule.others with hnone | ⟨others, other, hothers⟩
  · exact ⟨[], rule.first, List.mem_cons_self, by simp [serversText, hnone]⟩
  · refine ⟨rule.first.text ++ others.flatMap otherText ++ other.1.1 ++ ',' :: other.1.2, other.2, ?_,
      by simp [serversText, hothers, otherText]⟩
    exact List.mem_cons_of_mem _ (List.mem_map.mpr ⟨other, by simp [hothers], rfl⟩)

theorem Written.trimSpace_serversText (h : rule.Written net) (hnet : net.Textual) :
    trimSpace rule.serversText = rule.serversText := by
  have hsolid : ∀ server ∈ rule.servers, ∀ c ∈ server.text, isSpace c = false :=
    fun server hserver c hc =>
      not_isSpace_of_mem_serverChars ((h.servers server hserver).mem_text hnet hc)
  apply trimSpace_of_ends
  · intro c hc
    have hfirst := (h.servers rule.first List.mem_cons_self).text_ne_nil
    rw [serversText, List.head?_append_of_ne_nil _ hfirst] at hc
    exact hsolid rule.first List.mem_cons_self c (List.mem_of_mem_head? hc)
  · intro c hc
    obtain ⟨init, server, hserver, htext⟩ := rule.serversText_ends
    have hne := (h.servers server hserver).text_ne_nil
    rw [htext, List.getLast?_append_of_ne_nil _ hne] at hc
    exact hsolid server hserver c (List.mem_of_getLast? hc)

theorem map_trimSpace_splitOn {others : List ((Text × Text) × ForwardServer)} {first : Text}
    (hfirst : ',' ∉ first)
    (hothers : ∀ other ∈ others, other.1.1.all isBlank ∧ other.1.2.all isBlank ∧
      ∀ c ∈ other.2.text, c ∈ serverChars) :
    ((first ++ others.flatMap otherText).splitOn ',').map trimSpace =
      trimSpace first :: others.map fun other => other.2.text := by
  induction others generalizing first with
  | nil => simp [splitOn_of_not_mem hfirst]
  | cons other others ih =>
    obtain ⟨hbefore, hafter, htext⟩ := hothers other List.mem_cons_self
    have hcomma {blanks : Text} (h : blanks.all isBlank) : ',' ∉ blanks := fun hmem =>
      absurd (List.all_eq_true.mp h ',' hmem) (by decide)
    have hpart : ',' ∉ first ++ other.1.1 := fun hmem =>
      (List.mem_append.mp hmem).elim hfirst (hcomma hbefore)
    have hnext : ',' ∉ other.1.2 ++ other.2.text := fun hmem =>
      (List.mem_append.mp hmem).elim (hcomma hafter) fun hc => absurd (htext ',' hc) (by decide)
    have hsplit : first ++ (other :: others).flatMap otherText =
        (first ++ other.1.1) ++ ',' :: ((other.1.2 ++ other.2.text) ++ others.flatMap otherText) := by
      simp [otherText]
    have htrim : trimSpace (other.1.2 ++ other.2.text) = other.2.text := by
      rw [trimSpace_append_left (all_isSpace_of_isBlank hafter)]
      exact trimSpace_of_none fun c hc => not_isSpace_of_mem_serverChars (htext c hc)
    rw [hsplit, splitOn_append_sep hpart, List.map_cons,
      ih hnext fun other' hmem => hothers other' (List.mem_cons_of_mem other hmem), htrim,
      trimSpace_append_right (all_isSpace_of_isBlank hbefore), List.map_cons]

theorem Written.forwardServers_eq (h : rule.Written net) (hnet : net.Textual)
    (hdots : net.DotsLast) : forwardServers net rule.serversText = rule.servers.map (·.stored) := by
  have hchars : ∀ server ∈ rule.servers, ∀ c ∈ server.text, c ∈ serverChars :=
    fun server hserver c hc => (h.servers server hserver).mem_text hnet hc
  have hfirst := hchars rule.first List.mem_cons_self
  have hothers : ∀ other ∈ rule.others, other.1.1.all isBlank ∧ other.1.2.all isBlank ∧
      ∀ c ∈ other.2.text, c ∈ serverChars := fun other hmem =>
    ⟨(h.blanks other hmem).1, (h.blanks other hmem).2,
      hchars other.2 (List.mem_cons_of_mem _ (List.mem_map_of_mem hmem))⟩
  have htexts : (rule.serversText.splitOn ',').map trimSpace = rule.servers.map (·.text) := by
    rw [serversText, map_trimSpace_splitOn (fun hc => absurd (hfirst ',' hc) (by decide)) hothers,
      trimSpace_of_none fun c hc => not_isSpace_of_mem_serverChars (hfirst c hc)]
    simp [ForwardRule.servers]
  have hstore := congrArg (List.map fun server =>
    if (net.parseIP server).isSome then server ++ ":53".toList else server) htexts
  rw [List.map_map, List.map_map] at hstore
  refine hstore.trans (List.map_congr_left fun server hserver => ?_)
  exact (h.servers server hserver).store hnet hdots

theorem Written.stringTwoFields_text (h : rule.Written net) (hnet : net.Textual) :
    stringTwoFields rule.text = some (rule.domain, rule.serversText) := by
  obtain ⟨blank, blanks, hgap⟩ := List.exists_cons_of_ne_nil h.gap.1
  have hblanks : isBlank blank ∧ blanks.all isBlank := by
    have hall := h.gap.2
    rw [hgap] at hall
    simpa using hall
  have htext : rule.text = rule.domain ++ blank :: (blanks ++ rule.serversText) := by
    simp [text, hgap]
  have hspace : isSpace blank = true := isSpace_of_isBlank hblanks.1
  have hsize : blank.utf8Size = 1 := by
    rcases (by simpa [isBlank] using hblanks.1 : blank = ' ' ∨ blank = '\t') with rfl | rfl <;> decide
  have hne : rule.serversText ≠ [] :=
    List.append_ne_nil_of_left_ne_nil (h.servers rule.first List.mem_cons_self).text_ne_nil _
  have hdomain : ∀ c ∈ rule.domain, (!isSpace c) = true := fun c hc => by simp [h.domain.2 c hc]
  have hlong : ¬byteLength rule.text < 3 := by
    have hpos := List.length_pos_iff.mpr h.domain.1
    have hpos' := List.length_pos_iff.mpr hne
    have hbytes := length_le_byteLength rule.text
    rw [htext] at hbytes ⊢
    simp only [List.length_append, List.length_cons] at hbytes
    omega
  have hservers : trimSpace (dropByte blank (blanks ++ rule.serversText)) = rule.serversText := by
    rw [dropByte, hsize]
    exact (trimSpace_append_left (all_isSpace_of_isBlank hblanks.2) _).trans
      (h.trimSpace_serversText hnet)
  unfold stringTwoFields
  rw [if_neg hlong, htext, List.dropWhile_append_of_pos hdomain, List.takeWhile_append_of_pos hdomain,
    List.dropWhile_cons_of_neg (by simp [hspace]), List.takeWhile_cons_of_neg (by simp [hspace]),
    List.append_nil]
  dsimp only
  rw [hservers, trimSpace_of_none h.domain.2]
  simp [h.domain.1, hne]

end ForwardRule

/-! ## Files of rules -/

/-- The lines of a file, without empty ones and comments, are the given rules. -/
def ListsRules (bin : Text) (rules : List ForwardRule) : Prop :=
  ((bin.splitOn '\n').map trimAndStripInlineComments).filter (· ≠ []) = rules.map ForwardRule.text

variable (toLower) in
/-- The entry has the domain of the rule, and its servers as addresses with a port. -/
def Serves (rule : ForwardRule) (entry : ForwardEntry) : Prop :=
  entry.domain = toLower rule.domain ∧
    List.Forall₂ (fun server stored =>
        splitHostPort stored = .ok (server.host, server.port.getD "53".toList))
      rule.servers entry.servers

variable (toLower) in
def ForwardRule.entry (rule : ForwardRule) : ForwardEntry :=
  ⟨toLower rule.domain, rule.servers.map (·.stored)⟩

variable (toLower) in
theorem forwardLine_rule (hnet : net.Textual) (hdots : net.DotsLast) {rule : ForwardRule}
    (h : rule.Written net) {line : Text} (hline : trimAndStripInlineComments line = rule.text)
    (lineNo : Nat) : forwardLine net toLower lineNo line = .ok (some (rule.entry toLower)) := by
  have hne : rule.text ≠ [] := by
    rw [ForwardRule.text, List.append_assoc]
    exact List.append_ne_nil_of_left_ne_nil h.domain.1 _
  unfold forwardLine
  rw [hline, if_neg hne, h.stringTwoFields_text hnet]
  dsimp only
  rw [h.forwardServers_eq hnet hdots]
  rfl

variable (toLower) in
theorem forwardLines_eq (hnet : net.Textual) (hdots : net.DotsLast) {lines : List Text}
    {rules : List ForwardRule} (hrules : ∀ rule ∈ rules, rule.Written net)
    (hlines : (lines.map trimAndStripInlineComments).filter (· ≠ []) = rules.map ForwardRule.text)
    (i : Nat) :
    ∃ entries, (lines.zipIdx i).mapM (fun x => forwardLine net toLower (x.2 + 1) x.1) = .ok entries ∧
      entries.reduceOption = rules.map (·.entry toLower) := by
  induction lines generalizing rules i with
  | nil =>
    obtain rfl : rules = [] := by simpa using hlines.symm
    exact ⟨[], rfl, rfl⟩
  | cons line lines ih =>
    rw [List.zipIdx_cons, List.mapM_cons]
    by_cases hline : trimAndStripInlineComments line = []
    · rw [List.map_cons, List.filter_cons_of_neg (by simpa using hline)] at hlines
      obtain ⟨entries, hm, hentries⟩ := ih hrules hlines (i + 1)
      have hnone : forwardLine net toLower (i + 1) line = .ok none := by
        rw [forwardLine, hline, if_pos rfl]
      exact ⟨none :: entries, by rw [hnone, hm]; rfl, by simpa using hentries⟩
    · rw [List.map_cons, List.filter_cons_of_pos (by simpa using hline)] at hlines
      cases rules with
      | nil => cases hlines
      | cons rule rules =>
        obtain ⟨hrule, hrest⟩ := List.cons.inj hlines
        obtain ⟨entries, hm, hentries⟩ :=
          ih (fun rule hmem => hrules rule (List.mem_cons_of_mem _ hmem)) hrest (i + 1)
        have hsome := forwardLine_rule toLower hnet hdots (hrules rule List.mem_cons_self) hrule
          (i + 1)
        exact ⟨some (rule.entry toLower) :: entries, by rw [hsome, hm]; rfl, by simp [hentries]⟩

/-- A file of rules in the documented syntax: every server is stored with its host and its port, 53
by default, exactly if no server in brackets is without a port. -/
theorem servers_split_iff (hnet : net.Textual) (hdots : net.DotsLast) {bin : Text}
    {rules : List ForwardRule} (hrules : ∀ rule ∈ rules, rule.Written net)
    (hbin : ListsRules bin rules) :
    (∃ entries, forwardInit net toLower bin = .ok entries ∧
        List.Forall₂ (Serves toLower) rules entries) ↔
      ∀ rule ∈ rules, ∀ server ∈ rule.servers, ¬server.Portless := by
  obtain ⟨read, hm, hread⟩ := forwardLines_eq toLower hnet hdots hrules hbin 0
  have hinit : forwardInit net toLower bin = .ok (rules.map (·.entry toLower)) := by
    rw [← hread]
    exact congrArg (fun r => r >>= fun entries => .ok entries.reduceOption) hm
  have hserves (rule : ForwardRule) (hrule : rule ∈ rules) :
      Serves toLower rule (rule.entry toLower) ↔ ∀ server ∈ rule.servers, ¬server.Portless := by
    rw [Serves, ForwardRule.entry, List.forall₂_map_right_iff, List.forall₂_same,
      and_iff_right rfl]
    exact forall₂_congr fun server hserver =>
      ((hrules rule hrule).servers server hserver).split_iff hnet
  have hfile : List.Forall₂ (Serves toLower) rules (rules.map (·.entry toLower)) ↔
      ∀ rule ∈ rules, ∀ server ∈ rule.servers, ¬server.Portless := by
    rw [List.forall₂_map_right_iff, List.forall₂_same]
    exact forall₂_congr hserves
  rw [← hfile, hinit]
  constructor
  · rintro ⟨entries, heq, h⟩
    cases heq
    exact h
  · exact fun h => ⟨_, rfl, h⟩

end Rules

namespace Sample

/-- A parser that knows an address of either family. -/
def forwardNet : NetLibrary :=
  netOf [("192.0.2.1".toList, documented), ("2001:db8::1".toList, documented)] (by decide)

theorem parseIP_forwardNet {text : Text} {ip : IP} (h : forwardNet.parseIP text = some ip) :
    text = "192.0.2.1".toList ∨ text = "2001:db8::1".toList :=
  (List.mem_pair.mp (mem_of_parsed h)).imp (congrArg Prod.fst) (congrArg Prod.fst)

theorem forwardNet_textual : forwardNet.Textual := by
  intro text ip h
  rcases parseIP_forwardNet h with rfl | rfl
  · exact ⟨by decide, mem_of_all_contains (by decide)⟩
  · exact ⟨by decide, mem_of_all_contains (by decide)⟩

theorem forwardNet_dotsLast : forwardNet.DotsLast := by
  intro text ip h
  rcases parseIP_forwardNet h with rfl | rfl <;> decide

/-- `lan 192.0.2.1, [2001:db8::1]:5353` -/
def lanRule : ForwardRule :=
  ⟨"lan".toList, " ".toList, .ipv4 "192.0.2.1".toList none,
    [(([], " ".toList), .ipv6 "2001:db8::1".toList (some "5353".toList))]⟩

theorem lanRule_written : lanRule.Written forwardNet where
  domain := by
    have hall : lanRule.domain.all (fun c => !isSpace c) = true := by decide
    exact ⟨by decide, by simpa using hall⟩
  gap := ⟨by decide, by decide⟩
  servers := by
    intro server hserver
    rcases List.mem_cons.mp hserver with rfl | hserver
    · exact ⟨by decide, nofun, by decide, by decide⟩
    · obtain rfl := List.mem_singleton.mp hserver
      refine ⟨by decide, ?_, by decide⟩
      intro port hport
      cases hport
      exact ⟨by decide, mem_of_all_contains (by decide)⟩
  blanks := by
    intro other hother
    obtain rfl := List.mem_singleton.mp hother
    decide

theorem lan_servers_split :
    ∃ entries, forwardInit forwardNet PatternMatcher.asciiLower
        "lan 192.0.2.1, [2001:db8::1]:5353 # at home".toList = .ok entries ∧
      List.Forall₂ (Serves PatternMatcher.asciiLower) [lanRule] entries := by
  have hlists : ListsRules "lan 192.0.2.1, [2001:db8::1]:5353 # at home".toList [lanRule] := by
    unfold ListsRules
    decide
  have hwritten : ∀ rule ∈ [lanRule], rule.Written forwardNet := by
    intro rule hrule
    rw [List.mem_singleton.mp hrule]
    exact lanRule_written
  refine (servers_split_iff forwardNet_textual forwardNet_dotsLast hwritten hlists).mpr ?_
  rintro rule hrule server hserver ⟨host, rfl⟩
  rw [List.mem_singleton.mp hrule] at hserver
  simp [lanRule, ForwardRule.servers] at hserver

/-- The port is missing after an address in brackets, and the server cannot be dialed. -/
theorem brackets_without_port :
    forwardInit forwardNet PatternMatcher.asciiLower "lan [2001:db8::1]".toList =
        .ok [⟨"lan".toList, ["[2001:db8::1]".toList]⟩] ∧
      splitHostPort "[2001:db8::1]".toList =
        .error (.net "address [2001:db8::1]: missing port in address" false) := by
  decide

end Sample

end DnscryptProxy
