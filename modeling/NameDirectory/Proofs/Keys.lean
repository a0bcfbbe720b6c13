import NameDirectory.Proofs.Children
import NameDirectory.Proofs.Delivery
import NameDirectory.Proofs.Moves

/-!
# Where keys come from

Nothing is bound under a key but by a request whose target ends with it.  A name that is read from
text has no empty component and none with a slash in it; a name that is read from a message has
whatever components the message gives.

* `Tree.dispatch_snd`: a message changes the tree as the request in it does, if it holds one;
* `Tree.Ordered.hasKey_serve`: a request makes no more than one new key;
* `Tree.Ordered.hasKey_afterMessages`: each new key ends a target in some message;
* `Tree.keys_were_sent`: so names from text leave keys that text can name, and other names do not.
-/

namespace NameDirectory

/-! ## Targets -/

/-- The name that a request binds something to. -/
def Request.target? : Request → Option Name
  | bind n _ | rebind n _ | createSubcontext n | rename _ n => some n
  | lookup _ | list _ | listBindings _ | unbind _ | destroySubcontext _ | lookupLink _ => none

/-- The message is a request to bind something to the name. -/
def Name.TargetOf (n : Name) (m : Bytes) : Prop :=
  ∃ h r, Request.ofMessage? m = some (h, r) ∧ r.target? = some n

theorem Update.eq_absent_of_outcome {u : Update} {n : Name} {m : PathMap}
    [Decidable (m.Populated n.components)] {s : Occupant} (htarget : (u.request n).target? = none)
    (h : u.outcome n m = .ok s) : s = .absent := by
  have hsettle := settle_of_outcome h
  cases u with
  | bind | rebind | createSubcontext => cases htarget
  | unbind =>
    simp only [settle] at hsettle
    split at hsettle
    · cases hsettle
    · cases hsettle
      rfl
  | destroySubcontext =>
    simp only [settle] at hsettle
    split at hsettle
    · cases hsettle
    · cases hsettle
    · split at hsettle
      · cases hsettle
      · cases hsettle
        rfl

namespace Tree

variable {t : Tree} {k : String}

/-! ## Keys -/

/-- Something is bound under the key, in some context. -/
def HasKey (t : Tree) (k : String) : Prop := ∃ path, t.paths (path ++ [k]) ≠ .absent

theorem not_hasKey_empty (k : String) : ¬ Tree.empty.HasKey k := by
  rintro ⟨path, hpath⟩
  cases path <;> exact hpath rfl

/-- To put something at a name makes at most its last component a key. -/
theorem hasKey_of_put {t' : Tree} {n : Name} {s : Occupant}
    (hpaths : t'.paths = t.paths.put n.components s) (hk : t'.HasKey k) :
    t.HasKey k ∨ s ≠ .absent ∧ n.last? = some k := by
  obtain ⟨path, hpath⟩ := hk
  rw [hpaths, PathMap.put] at hpath
  split at hpath
  · next hname =>
    refine .inr ⟨hpath, ?_⟩
    rw [Name.last?, ← hname, List.getLast?_concat]
  · split at hpath
    · exact absurd rfl hpath
    · exact .inl ⟨path, hpath⟩

theorem Ordered.hasKey_update (h : t.Ordered) (u : Update) (n : Name)
    (hk : (t.serve (u.request n)).2.HasKey k) :
    t.HasKey k ∨ (u.request n).target? = some n ∧ n.last? = some k := by
  have hserve := h.serve_outcome u n
  cases houtcome : u.outcome n t.paths with
  | error fault =>
    simp only [houtcome] at hserve
    rw [hserve] at hk
    exact .inl hk
  | ok s =>
    simp only [houtcome] at hserve
    obtain ⟨t', hok, -, hpaths⟩ := hserve
    rw [hok] at hk
    rcases hasKey_of_put hpaths hk with hk | ⟨hput, hlast⟩
    · exact .inl hk
    refine .inr ⟨?_, hlast⟩
    cases u with
    | bind | rebind | createSubcontext => rfl
    | unbind | destroySubcontext => exact absurd (Update.eq_absent_of_outcome rfl houtcome) hput

theorem Ordered.hasKey_rename (h : t.Ordered) {n m : Name}
    (hk : (t.serve (.rename n m)).2.HasKey k) : t.HasKey k ∨ m.last? = some k := by
  rcases h.rename_cases n m with ⟨fault, hserve⟩ | ⟨t', hserve, -, -, hthere, hgone, helsewhere⟩
  · rw [hserve] at hk
    exact .inl hk
  rw [hserve] at hk
  obtain ⟨path, hpath⟩ := hk
  by_cases hm : m.components <+: path ++ [k]
  · obtain ⟨rest, hrest⟩ := hm
    rcases List.eq_nil_or_concat rest with rfl | ⟨below, last, rfl⟩
    · right
      rw [List.append_nil] at hrest
      rw [Name.last?, hrest, List.getLast?_concat]
    -- what is beneath the new name was beneath the old one
    · left
      rw [List.concat_eq_append, ← List.append_assoc] at hrest
      obtain ⟨rfl, rfl⟩ := List.append_singleton_inj.mp hrest
      refine ⟨n.components ++ below, ?_⟩
      rw [List.append_assoc, paths, ← hthere, ← List.append_assoc]
      exact hpath
  · left
    by_cases hn : n.components <+: path ++ [k]
    · obtain ⟨rest, hrest⟩ := hn
      exact absurd (hrest ▸ hgone rest) hpath
    · exact ⟨path, helsewhere _ hn hm ▸ hpath⟩

/-- A request makes no more than one new key, the last component of its target. -/
theorem Ordered.hasKey_serve (h : t.Ordered) (r : Request) (hk : (t.serve r).2.HasKey k) :
    t.HasKey k ∨ ∃ n, r.target? = some n ∧ n.last? = some k := by
  rcases serve_cases t r with ⟨u, n, rfl⟩ | ⟨n, m, rfl⟩ | ⟨-, hsame⟩
  · exact (h.hasKey_update u n hk).imp_right fun htarget => ⟨n, htarget⟩
  · exact (h.hasKey_rename hk).imp_right fun hlast => ⟨m, rfl, hlast⟩
  · rw [hsame] at hk
    exact .inl hk

/-! ## Messages -/

theorem dispatch_snd (t : Tree) (m : Bytes) :
    (t.dispatch m).2 =
      match Request.ofMessage? m with
      | none => t
      | some (_, r) => (t.serve r).2 := by
  unfold dispatch Request.ofMessage?
  rcases Frame.Reader.header.on m with ⟨fault | h, body⟩
  · rfl
  cases hop : Operation.ofCode? h.code with
  | none => simp only [hop]
  | some op =>
    simp only [hop, serveBody]
    cases hread : ((Request.read op).on body).1 with
    | error fault => rfl
    | ok r =>
      simp only
      cases writeOutcome op (t.serve r).1 <;> rfl

/-- What is left of a tree once messages were dispatched against it, one after the other. -/
def afterMessages (t : Tree) (messages : List Bytes) : Tree :=
  messages.foldl (fun t m => (t.dispatch m).2) t

theorem Ordered.afterMessages (h : t.Ordered) (messages : List Bytes) :
    (t.afterMessages messages).Ordered := by
  induction messages generalizing t with
  | nil => exact h
  | cons m messages ih =>
    refine ih ?_
    simp only [dispatch_snd]
    split
    · exact h
    · exact h.serve _

theorem Ordered.hasKey_dispatch (h : t.Ordered) {m : Bytes} (hk : (t.dispatch m).2.HasKey k) :
    t.HasKey k ∨ ∃ n : Name, n.TargetOf m ∧ n.last? = some k := by
  rw [dispatch_snd] at hk
  split at hk
  · exact .inl hk
  · next header r hm =>
    refine (h.hasKey_serve r hk).imp_right ?_
    rintro ⟨n, htarget, hlast⟩
    exact ⟨n, ⟨header, r, hm, htarget⟩, hlast⟩

theorem Ordered.hasKey_afterMessages (h : t.Ordered) {messages : List Bytes}
    (hk : (t.afterMessages messages).HasKey k) :
    t.HasKey k ∨ ∃ m ∈ messages, ∃ n : Name, n.TargetOf m ∧ n.last? = some k := by
  induction messages using List.reverseRecOn with
  | nil => exact .inl hk
  | append_singleton messages m ih =>
    rw [Tree.afterMessages, List.foldl_concat] at hk
    rcases (h.afterMessages messages).hasKey_dispatch hk with hk | hsent
    · refine (ih hk).imp_right ?_
      rintro ⟨m', hm', hsent⟩
      exact ⟨m', List.mem_append_left _ hm', hsent⟩
    · exact .inr ⟨m, by simp, hsent⟩

/-- In the root context, every text that fits into a message can be made a key. -/
theorem Ordered.hasKey_createSubcontext (h : t.Ordered)
    (htravels : (Request.createSubcontext ⟨[k]⟩).Travels) (number : Int32) :
    (t.dispatch ((Request.createSubcontext ⟨[k]⟩).encode number)).2.HasKey k := by
  have hserve := h.serve_outcome .createSubcontext ⟨[k]⟩
  rw [dispatch_snd, Request.ofMessage?_encode htravels]
  refine ⟨[], ?_⟩
  by_cases hfree : t.paths [k] = .absent
  · have houtcome : Update.outcome .createSubcontext ⟨[k]⟩ t.paths = .ok .context := by
      simp [Update.outcome, Name.splitLast, PathMap.obstacle, PathMap.barrier, Update.settle, hfree,
        paths_nil]
    rw [houtcome] at hserve
    obtain ⟨t', hok, -, hpaths⟩ := hserve
    simp only [Update.request] at hok
    simp [hok, hpaths, PathMap.put]
  · have houtcome : ∃ fault, Update.outcome .createSubcontext ⟨[k]⟩ t.paths = .error fault := by
      simp [Update.outcome, Name.splitLast, PathMap.obstacle, PathMap.barrier, Update.settle, hfree]
    obtain ⟨fault, houtcome⟩ := houtcome
    rw [houtcome] at hserve
    simp only [Update.request] at hserve
    simpa [hserve] using hfree

/-- Each key in a directory that was empty at first ends a target in one of the messages that were
dispatched.  So it is neither empty nor has it a slash in it if the targets were made of what is
read from text; but in a message a key may be any text at all. -/
theorem keys_were_sent (messages : List Bytes) :
    (∀ k, (Tree.empty.afterMessages messages).HasKey k →
      ∃ m ∈ messages, ∃ n : Name, n.TargetOf m ∧ n.last? = some k) ∧
    ((∀ m ∈ messages, ∀ n : Name, n.TargetOf m →
        ∀ k ∈ n.components, ∃ text, k ∈ (Name.parse text).components) →
      ∀ k, (Tree.empty.afterMessages messages).HasKey k → k ≠ "" ∧ '/' ∉ k.toList) ∧
    ∀ k number, (Request.createSubcontext ⟨[k]⟩).Travels →
      (Tree.empty.afterMessages
        (messages ++ [(Request.createSubcontext ⟨[k]⟩).encode number])).HasKey k := by
  have hsent : ∀ k, (Tree.empty.afterMessages messages).HasKey k →
      ∃ m ∈ messages, ∃ n : Name, n.TargetOf m ∧ n.last? = some k := fun k hk =>
    (Ordered.empty.hasKey_afterMessages hk).resolve_left (not_hasKey_empty k)
  refine ⟨hsent, fun htext k hk => ?_, fun k number htravels => ?_⟩
  · obtain ⟨m, hm, n, htarget, hlast⟩ := hsent k hk
    obtain ⟨text, hmem⟩ := htext m hm n htarget k (List.mem_of_getLast? hlast)
    exact Name.of_mem_parse hmem
  · rw [Tree.afterMessages, List.foldl_concat]
    exact (Ordered.empty.afterMessages messages).hasKey_createSubcontext htravels number

theorem keys_were_sent_two :
    let first := (Request.createSubcontext ⟨["a"]⟩).encode 1
    let second := (Request.bind ⟨["a", "x"]⟩ .null).encode 2
    let t := Tree.empty.afterMessages [first, second]
    t = [("a", .context [("x", .object .null)])] ∧
      (∃ m ∈ [first, second], ∃ n : Name, n.TargetOf m ∧ n.last? = some "x") ∧
      '/' ∉ "x".toList ∧
      (Request.createSubcontext ⟨["y"]⟩).Travels ∧
      (Tree.empty.afterMessages
        ([first, second] ++ [(Request.createSubcontext ⟨["y"]⟩).encode 3])).HasKey "y" := by
  intro first second t
  have hfirst : Request.ofMessage? first = some (⟨0x08, 1⟩, .createSubcontext ⟨["a"]⟩) :=
    Request.ofMessage?_encode (by decide) 1
  have hsecond : Request.ofMessage? second = some (⟨0x02, 2⟩, .bind ⟨["a", "x"]⟩ .null) :=
    Request.ofMessage?_encode (by decide) 2
  have ht : t = [("a", .context [("x", .object .null)])] := by
    simp only [t, afterMessages, List.foldl, dispatch_snd, hfirst, hsecond]
    rfl
  have hx : t.HasKey "x" := ⟨["a"], by rw [ht]; decide⟩
  have htext : ∀ k ∈ (Name.parse "a/x").components, ∃ text, k ∈ (Name.parse text).components :=
    fun k hk => ⟨"a/x", hk⟩
  have hread : (Name.parse "a/x").components = ["a", "x"] := by decide +kernel
  rw [hread] at htext
  have htargets : ∀ m ∈ [first, second], ∀ n : Name, n.TargetOf m →
      ∀ k ∈ n.components, ∃ text, k ∈ (Name.parse text).components := by
    rintro m hm n ⟨h, r, hmessage, htarget⟩ k hk
    simp only [List.mem_cons, List.not_mem_nil, or_false] at hm
    rcases hm with rfl | rfl
    · cases hfirst.symm.trans hmessage
      cases htarget
      exact htext k (List.mem_cons.mpr (.inl (List.mem_singleton.mp hk)))
    · cases hsecond.symm.trans hmessage
      cases htarget
      exact htext k hk
  have hy : (Request.createSubcontext ⟨["y"]⟩).Travels := by decide
  obtain ⟨hsent, hplain, hmakes⟩ := keys_were_sent [first, second]
  exact ⟨ht, hsent "x" hx, (hplain htargets "x" hx).2, hy, hmakes "y" 3 hy⟩

/-- An empty key, and one with a slash in it.  No text is read as a name with such a component, and
the text of the second one leads nowhere. -/
theorem empty_key_and_slash :
    let messages := [(Request.createSubcontext ⟨[""]⟩).encode 1,
      (Request.createSubcontext ⟨["a/b"]⟩).encode 2]
    let t := Tree.empty.afterMessages messages
    t.HasKey "" ∧ t.HasKey "a/b" ∧
      (∀ text, "" ∉ (Name.parse text).components ∧ "a/b" ∉ (Name.parse text).components) ∧
      (Name.mk ["a/b"]).text = "a/b" ∧
      (t.serve (.lookup (Name.parse "a/b"))).1 = .error (.nameNotFound "a") := by
  intro messages t
  have ht : t = [("", .context []), ("a/b", .context [])] := by
    simp only [t, messages, afterMessages, List.foldl, dispatch_snd]
    rw [Request.ofMessage?_encode (by decide), Request.ofMessage?_encode (by decide)]
    rfl
  refine ⟨⟨[], ?_⟩, ⟨[], ?_⟩, fun text => ⟨fun h => ?_, fun h => ?_⟩, ?_, ?_⟩
  · rw [ht]
    decide
  · rw [ht]
    decide
  · exact (Name.of_mem_parse h).1 rfl
  · exact (Name.of_mem_parse h).2 (by decide)
  · decide +kernel
  · rw [ht]
    decide +kernel

end Tree

end NameDirectory
