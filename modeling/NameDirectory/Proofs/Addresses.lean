import NameDirectory.Destination
import NameDirectory.Proofs.NameText
import NameDirectory.Proofs.Scans

/-!
# Addresses written and read back

The text of an address names the scheme, and has brackets around the host where a colon is in it.
Reading is more liberal: it takes off blanks around the whole, slashes at the end and any brackets
around the host, and takes a sign and zeros before the port.  What it gives is read back from its
text all the same.

* `Destination.Legible`, `Destination.Legible.parse_text`: the addresses that are read back;
* `Destination.legible_of_parse`: what is read is one of them;
* `Destination.parseList_read_back`: so lists of addresses are read back, and reports of failed
  attempts name the servers that were tried.
-/

namespace NameDirectory

/-! ## Lists read one by one -/

section

variable {α β ε : Type} {f : α → Except ε β}

theorem exists_of_mem_mapM {xs : List α} {ys : List β} (h : xs.mapM f = .ok ys) {y : β}
    (hy : y ∈ ys) : ∃ x ∈ xs, f x = .ok y := by
  induction xs generalizing ys with
  | nil =>
    rw [List.mapM_nil] at h
    cases h
    cases hy
  | cons x xs ih =>
    rw [List.mapM_cons] at h
    cases hx : f x with
    | error fault =>
      rw [hx] at h
      cases h
    | ok y₁ =>
      rw [hx] at h
      cases hrest : xs.mapM f with
      | error fault =>
        simp only [hrest, Bind.bind, Except.bind] at h
        cases h
      | ok rest =>
        simp only [hrest, Bind.bind, Except.bind] at h
        cases h
        rcases List.mem_cons.mp hy with rfl | hy
        · exact ⟨x, List.mem_cons_self, hx⟩
        · obtain ⟨x', hx', hread⟩ := ih hrest hy
          exact ⟨x', List.mem_cons_of_mem x hx', hread⟩

theorem mapM_map_of_forall {ys : List β} {g : β → α} (h : ∀ y ∈ ys, f (g y) = .ok y) :
    (ys.map g).mapM f = .ok ys := by
  induction ys with
  | nil => rfl
  | cons y ys ih =>
    rw [List.map_cons, List.mapM_cons, h y List.mem_cons_self,
      ih fun y' hy' => h y' (List.mem_cons_of_mem y hy')]
    rfl

end

namespace Destination

variable {d : Destination} {s : String}

/-! ## What is read -/

/-- The text of the address shows its parts: the scheme ends at the first `://`, no blank is in
front of it, and the host has no bracket of those that are taken off. -/
structure Legible (d : Destination) : Prop where
  scheme_shown : Text.cutFirst "://".toList (d.scheme.toList ++ "://".toList) =
    some (d.scheme.toList, [])
  scheme_named : d.scheme ≠ ""
  front : ∀ c ∈ d.scheme.toList.head?, Text.isBlank c = false
  host_named : d.host ≠ ""
  opened : ∀ c ∈ d.host.toList.head?, (c == '[') = false
  shut : ∀ c ∈ d.host.toList.getLast?, (c == ']') = false

/-- The host as it stands in the text. -/
def enclosed (d : Destination) : List Char :=
  if ':' ∈ d.host.toList then '[' :: d.host.toList ++ [']'] else d.host.toList

theorem toList_authority (d : Destination) :
    d.authority.toList = d.enclosed ++ ':' :: Nat.toDigits 10 d.port.toNat := by
  unfold authority enclosed
  rw [Nat.toString_eq_ofList_toDigits]
  split <;> simp

theorem mem_toDigits_of_getLast? {c : Char} (h : c ∈ d.authority.toList.getLast?) :
    c ∈ Nat.toDigits 10 d.port.toNat := by
  rw [toList_authority, List.getLast?_append_of_ne_nil _ (by simp),
    List.getLast?_cons_of_ne_nil Nat.toDigits_ne_nil] at h
  exact List.mem_of_getLast? h

theorem toList_text (d : Destination) :
    d.text.toList = d.scheme.toList ++ "://".toList ++ d.authority.toList := by
  simp [text]

/-- The brackets that are taken off are those that were put around the host. -/
theorem Legible.host_of_enclosed (h : d.Legible) :
    Text.dropEndWhile (· == ']') (d.enclosed.dropWhile (· == '[')) = d.host.toList := by
  have hfront := (Text.dropWhile_eq_self_iff_head? (· == '[')).mpr h.opened
  have hback := (Text.dropEndWhile_eq_self_iff_getLast? (· == ']')).mpr h.shut
  unfold enclosed
  split
  · have hnonempty : d.host.toList ≠ [] := by simpa using h.host_named
    obtain ⟨c, cs, hcs⟩ := List.exists_cons_of_ne_nil hnonempty
    have hc : (c == '[') = false := h.opened c (by rw [hcs]; rfl)
    have hopen : ('[' :: d.host.toList ++ [']']).dropWhile (· == '[') = d.host.toList ++ [']'] := by
      simp [hcs, hc]
    rw [hopen, Text.dropEndWhile_eq_rdropWhile, List.rdropWhile_concat_pos _ _ _ rfl]
    exact hback
  · rw [hfront, hback]

theorem Legible.splitAuthority_authority (h : d.Legible) :
    splitAuthority d.authority = some (d.host, d.port) := by
  have hdigit : ∀ c ∈ Nat.toDigits 10 d.port.toNat, c.isDigit = true := fun c hc =>
    Nat.isDigit_of_mem_toDigits (by decide) (by decide) hc
  have hcolon : ':' ∉ Nat.toDigits 10 d.port.toNat := fun hmem => by
    cases hdigit ':' hmem
  have hslash : Text.dropEndWhile (· == '/') d.authority.toList = d.authority.toList := by
    rw [Text.dropEndWhile_eq_self_iff_getLast?]
    intro c hc
    have hne : c ≠ '/' := by
      rintro rfl
      cases hdigit '/' (mem_toDigits_of_getLast? hc)
    simpa using hne
  have hcut : Text.cutLast ':' (Text.dropEndWhile (· == '/') d.authority.toList) =
      some (d.enclosed, Nat.toDigits 10 d.port.toNat) := by
    rw [hslash, toList_authority]
    exact Text.cutLast_append_cons d.enclosed hcolon
  have hport : d.port.toNat < 65536 := d.port.toNat_lt
  simp only [splitAuthority, hcut, Option.bind_eq_bind, Option.bind_some, h.host_of_enclosed,
    Text.natural?_toDigits hport, List.isEmpty_iff, String.toList_eq_nil_iff, h.host_named, if_false,
    String.ofList_toList]
  simp

theorem Legible.trim_text (h : d.Legible) : Text.trim d.text = d.text := by
  rw [Text.trim_eq_self_iff]
  refine ⟨fun c hc => h.front c ?_, fun c hc => ?_⟩
  · have hnonempty : d.scheme.toList ≠ [] := by simpa using h.scheme_named
    rwa [toList_text, List.append_assoc, List.head?_append_of_ne_nil _ hnonempty] at hc
  · have hnonempty : d.authority.toList ≠ [] := by simp [toList_authority]
    rw [toList_text, List.getLast?_append_of_ne_nil _ hnonempty] at hc
    have hdigit := Nat.isDigit_of_mem_toDigits (by decide) (by decide) (mem_toDigits_of_getLast? hc)
    exact Text.isBlank_of_isDigit hdigit

theorem Legible.parse_text (h : d.Legible) : parse d.text = .ok d := by
  have hscheme : splitScheme d.text = some (d.scheme, d.authority) := by
    have hcut := Text.cutFirst_append h.scheme_shown d.authority.toList
    have hnamed : d.scheme.isEmpty = false := by simpa using h.scheme_named
    rw [splitScheme, Text.splitFirst, toList_text, hcut]
    simp [hnamed]
  simp only [parse, h.trim_text, hscheme, h.splitAuthority_authority, Option.bind_eq_bind, Option.bind_some]
  rfl

/-! ## What reading gives -/

theorem splitScheme_spec {scheme rest : String} (h : splitScheme s = some (scheme, rest)) :
    (scheme = defaultScheme ∧ rest = s) ∨
      (scheme ≠ "" ∧ s.toList = scheme.toList ++ "://".toList ++ rest.toList ∧
        Text.cutFirst "://".toList (scheme.toList ++ "://".toList) = some (scheme.toList, [])) := by
  unfold splitScheme at h
  split at h
  · next scheme' rest' hsplit =>
    split at h
    · cases h
    · next hnamed =>
      cases h
      obtain ⟨⟨before, after⟩, hcut, heq⟩ := Option.map_eq_some_iff.mp hsplit
      cases heq
      refine .inr ⟨by simpa using hnamed, ?_, ?_⟩
      · simpa using Text.eq_append_of_cutFirst hcut
      · simpa using Text.cutFirst_append hcut []
  · cases h
    exact .inl ⟨rfl, rfl⟩

/-- What is read as a host has been freed of brackets. -/
theorem splitAuthority_spec {host : String} {port : UInt16}
    (h : splitAuthority s = some (host, port)) :
    host ≠ "" ∧ (∀ c ∈ host.toList.head?, (c == '[') = false) ∧
      (∀ c ∈ host.toList.getLast?, (c == ']') = false) ∧ host.toList.Sublist s.toList := by
  unfold splitAuthority at h
  simp only [Option.bind_eq_bind, Option.bind_eq_some_iff] at h
  obtain ⟨⟨before, after⟩, hcut, port', -, h⟩ := h
  split at h
  · cases h
  · next hnonempty =>
    cases h
    simp only [String.toList_ofList]
    have hpart : (Text.dropEndWhile (· == '/') s.toList).Sublist s.toList :=
      (List.rdropWhile_prefix _ _).sublist
    rw [Text.eq_append_of_cutLast hcut] at hpart
    refine ⟨by simpa using hnonempty, fun c hc => ?_, fun c hc => ?_, ?_⟩
    · exact Text.head?_dropEndWhile_dropWhile (p := (· == ']')) (q := (· == '[')) hc
    · exact Text.getLast?_dropEndWhile (p := (· == ']')) hc
    · exact (List.rdropWhile_prefix _ _).sublist.trans ((List.dropWhile_sublist _).trans
        ((List.sublist_append_left _ _).trans hpart))

/-- What is read is legible, and its characters are those of the text or of the default scheme. -/
theorem legible_of_parse (h : parse s = .ok d) :
    d.Legible ∧ ∀ c, c ∉ s.toList → c ∉ defaultScheme.toList →
      c ∉ d.scheme.toList ∧ c ∉ d.host.toList := by
  have hfront : ∀ c ∈ (Text.trim s).toList.head?, Text.isBlank c = false :=
    (Text.trim_eq_self_iff.mp (Text.trim_trim s)).1
  have htrim : (Text.trim s).toList.Sublist s.toList := by
    rw [Text.trim, String.toList_ofList]
    exact Text.trimChars_sublist s.toList
  unfold parse at h
  simp only [Option.bind_eq_bind] at h
  split at h
  case h_2 => cases h
  next d' hread =>
  cases h
  simp only [Option.bind_eq_some_iff] at hread
  obtain ⟨⟨scheme, rest⟩, hscheme, ⟨host, port⟩, hauthority, hd⟩ := hread
  cases hd
  obtain ⟨hnamed, hopened, hshut, hsub⟩ := splitAuthority_spec hauthority
  rcases splitScheme_spec hscheme with ⟨rfl, rfl⟩ | ⟨hscheme, hparts, hshown⟩
  · have hshown : Text.cutFirst "://".toList (defaultScheme.toList ++ "://".toList) =
        some (defaultScheme.toList, []) := by decide
    have hblank : ∀ c ∈ defaultScheme.toList.head?, Text.isBlank c = false := by
      rintro _ ⟨⟩
      decide
    have hdefault : defaultScheme ≠ "" := by decide
    refine ⟨⟨hshown, hdefault, hblank, hnamed, hopened, hshut⟩, fun c hc hdefault => ?_⟩
    exact ⟨hdefault, fun hmem => hc (htrim.subset (hsub.subset hmem))⟩
  · refine ⟨⟨hshown, hscheme, fun c hc => hfront c ?_, hnamed, hopened, hshut⟩, fun c hc hdefault => ?_⟩
    · have hnonempty : scheme.toList ≠ [] := by simpa using hscheme
      rwa [hparts, List.append_assoc, List.head?_append_of_ne_nil _ hnonempty]
    · have hc' : c ∉ (Text.trim s).toList := fun hmem => hc (htrim.subset hmem)
      rw [hparts, List.mem_append, List.mem_append, not_or, not_or] at hc'
      exact ⟨hc'.1.1, fun hmem => hc'.2 (hsub.subset hmem)⟩

/-! ## Lists of addresses -/

/-- Commas in the text of an address are those of its scheme and host. -/
theorem not_mem_text {c : Char} (hscheme : c ∉ d.scheme.toList) (hhost : c ∉ d.host.toList)
    (hmark : c ∉ "://[]".toList) (hdigit : c.isDigit = false) : c ∉ d.text.toList := by
  have hport : c ∉ Nat.toDigits 10 d.port.toNat := fun hmem => by
    have hc := Nat.isDigit_of_mem_toDigits (by decide) (by decide) hmem
    rw [hdigit] at hc
    cases hc
  have henclosed : c ∉ d.enclosed := by
    unfold enclosed
    split <;> simp_all
  rw [toList_text, toList_authority]
  simp_all

theorem parseList_joinWith {ds : List Destination} (h : ∀ d ∈ ds, d.Legible)
    (hcomma : ∀ d ∈ ds, ',' ∉ d.text.toList) :
    parseList (Text.joinWith ',' (ds.map text)) = .ok ds := by
  have hsplit : ds ≠ [] →
      Text.splitOn ',' (Text.joinWith ',' (ds.map text)) = ds.map text := by
    intro hne
    rw [Text.splitOn, Text.joinWith, String.toList_ofList,
      List.splitOn_intercalate ',' (by simpa using hcomma) (by simpa using hne)]
    simp [Function.comp_def]
  have hclean : ((ds.map text).map Text.trim).filter (!·.isEmpty) = ds.map text := by
    have htrim : (ds.map text).map Text.trim = ds.map text := by
      rw [List.map_map]
      exact List.map_congr_left fun d hd => (h d hd).trim_text
    rw [htrim, List.filter_eq_self]
    simp [text]
  cases ds with
  | nil => rfl
  | cons d ds =>
    rw [parseList, hsplit (by simp), hclean]
    exact mapM_map_of_forall fun d' hd => (h d' hd).parse_text

theorem legible_of_parseList {ds : List Destination} (h : parseList s = .ok ds) {d : Destination}
    (hd : d ∈ ds) : d.Legible ∧ ',' ∉ d.text.toList := by
  obtain ⟨piece, hpiece, hparse⟩ := exists_of_mem_mapM h hd
  obtain ⟨hmem, -⟩ := List.mem_filter.mp hpiece
  obtain ⟨part, hpart, rfl⟩ := List.mem_map.mp hmem
  obtain ⟨cs, hcs, rfl⟩ := List.mem_map.mp hpart
  obtain ⟨-, hfree⟩ := Text.infix_of_mem_splitOn hcs
  obtain ⟨hlegible, hchars⟩ := legible_of_parse hparse
  have hcomma : ',' ∉ (Text.trim (String.ofList cs)).toList := fun hmem => hfree (by
    rw [Text.trim, String.toList_ofList, String.toList_ofList] at hmem
    exact (Text.trimChars_sublist cs).subset hmem)
  obtain ⟨hscheme, hhost⟩ := hchars ',' hcomma (by decide)
  exact ⟨hlegible, not_mem_text hscheme hhost (by decide) (by decide)⟩

/-- What failed attempts at the servers `ds` are reported with. -/
theorem reports_of_servers {σ S : Type} (env : Failover.Environment σ S) {g : Failover.Group S}
    {ds : List Destination} (hservers : g.servers = ds.map text) (hcursor : g.cursor < ds.length)
    {w : σ} {fault : ClientFault} (h : (g.install env w).1 = .error fault) :
    ∃ attempts cause,
      (fault = .communication attempts cause ∨ fault = .authentication attempts cause) ∧
      ∀ i a, attempts[i]? = some a → ∃ d f,
        ds[Failover.serverAt ds.length g.cursor i]? = some d ∧ a = Failover.attempt d.text f := by
  have hlength : g.servers.length = ds.length := by rw [hservers, List.length_map]
  obtain ⟨faults, w₁, -, ⟨-, hscan⟩ | ⟨-, session, w₂, -, hscan⟩⟩ :=
    Failover.scan_happens env g.servers g.servers.length (hlength ▸ hcursor) [] none w
  · simp only [Failover.Group.install, hscan, List.nil_append, Failover.exhaustedFault_eq] at h
    cases h
    obtain ⟨cause, hverdict⟩ := Failover.exists_verdict (Failover.reports g.servers g.cursor faults) faults
    refine ⟨_, cause, hverdict, fun i a ha => ?_⟩
    rw [Failover.reports, List.getElem?_mapIdx] at ha
    obtain ⟨f, -, rfl⟩ := Option.map_eq_some_iff.mp ha
    have hinside : Failover.serverAt ds.length g.cursor i < ds.length := Nat.mod_lt _ (by omega)
    refine ⟨_, f, List.getElem?_eq_getElem hinside, ?_⟩
    simp [hservers, List.getElem?_eq_getElem hinside]
  · simp only [Failover.Group.install, hscan] at h
    cases h

/-- The texts of addresses that were read from a list, with commas between them, are read as the same
addresses, and each of them as its own.  So where the servers of a group were read from a list, an
attempt is reported with a text that is read as the address of the server that was tried, whether
no server was found or the one that was found failed on the way. -/
theorem parseList_read_back {ds : List Destination} (h : parseList s = .ok ds) :
    parseList (Text.joinWith ',' (ds.map text)) = .ok ds ∧
    (∀ d ∈ ds, parse d.text = .ok d) ∧
    (∀ {σ S : Type} (env : Failover.Environment σ S) (g : Failover.Group S) (w : σ),
      g.servers = ds.map text → g.cursor < ds.length → ∀ fault, (g.install env w).1 = .error fault →
        ∃ attempts cause,
          (fault = .communication attempts cause ∨ fault = .authentication attempts cause) ∧
          ∀ i a, attempts[i]? = some a → ∃ d f,
            ds[Failover.serverAt ds.length g.cursor i]? = some d ∧ a = Failover.attempt d.text f) ∧
    ∀ {S α : Type} (c : Failover.Current S) (d : Destination) (f : TransportFault),
      ds[c.index]? = some d →
        (Failover.Stage.afterSecond (ds.map text) c (.error (.transport f)) : Failover.Stage S α) =
          .finished (.error (.communication [Failover.attempt d.text f] (some f))) := by
  have hlegible : ∀ d ∈ ds, d.Legible := fun d hd => (legible_of_parseList h hd).1
  refine ⟨parseList_joinWith hlegible fun d hd => (legible_of_parseList h hd).2,
    fun d hd => (hlegible d hd).parse_text,
    fun env g w hservers hcursor fault hfails => reports_of_servers env hservers hcursor hfails,
    fun c d f hd => ?_⟩
  simp [Failover.Stage.afterSecond, hd]

/-- A scheme with a blank at its end, brackets and colons in hosts, a port with a sign and zeros; and
a scan from the second server on that none of them answers. -/
theorem parseList_read_back_odd :
    let s := " a ://[[ ::1]]:+080// ,, x]://y:/z:0443,[ h]:7"
    let ds : List Destination := [⟨"a ", " ::1", 80⟩, ⟨"x]", "y:/z", 443⟩, ⟨"remote", " h", 7⟩]
    let refusing : Failover.Environment Unit Unit :=
      ⟨fun _ w => (.error .connectionClosed, w), fun _ _ w => w, fun _ w => w, id⟩
    let attempts := ["x]://[y:/z]:443 (connection closed)", "remote:// h:7 (connection closed)",
      "a ://[ ::1]:80 (connection closed)"]
    parseList s = .ok ds ∧
      parseList "a ://[ ::1]:80,x]://[y:/z]:443,remote:// h:7" = .ok ds ∧
      ((⟨ds.map text, 1, 0, none, false⟩ : Failover.Group Unit).install refusing ()).1 =
        .error (.communication attempts (some .connectionClosed)) ∧
      ∀ i a, attempts[i]? = some a → ∃ d f,
        ds[Failover.serverAt 3 1 i]? = some d ∧ a = Failover.attempt d.text f := by
  intro s ds refusing attempts
  have hread : parseList s = .ok ds := by decide +kernel
  obtain ⟨hagain, -, hreports, -⟩ := parseList_read_back hread
  have htexts : Text.joinWith ',' (ds.map text) =
      "a ://[ ::1]:80,x]://[y:/z]:443,remote:// h:7" := by decide +kernel
  rw [htexts] at hagain
  have hfails : ((⟨ds.map text, 1, 0, none, false⟩ : Failover.Group Unit).install refusing ()).1 =
      .error (.communication attempts (some .connectionClosed)) := by decide +kernel
  obtain ⟨attempts', cause, heq | heq, htried⟩ :=
    hreports refusing ⟨ds.map text, 1, 0, none, false⟩ () rfl (by decide) _ hfails
  · cases heq
    exact ⟨hread, hagain, hfails, htried⟩
  · cases heq

end Destination

end NameDirectory
