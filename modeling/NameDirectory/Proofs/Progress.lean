import NameDirectory.Proofs.Remote
import NameDirectory.Proofs.Retagging

/-!
# Progress through a list

A response that lists its results announces how many there are before the first, and the number is
its sender's to choose.  That reading ends with the bytes all the same is due to the elements: one
that is read takes three bytes at least, and one that is not ends the reading.

* `Takes`: what a reader leaves of the bytes, and how many it takes for what it reads; readings in
  sequence are put together by `Takes.bind`;
* `Outcome.Reader.Reading`: how the elements of a list are gone through, one after the other;
* `Outcome.Reader.Reading.runs_le`: their reader is run no more often than there are bytes, or once if
  there is none;
* `Outcome.decode_within`: what follows for the two responses that list something.
-/

namespace NameDirectory

variable {ε ε' α β : Type} {m n : Nat}

/-! ## What a reader leaves -/

/-- However `r` ends, it has read from the front, and what it reads takes at least `n` bytes. -/
structure Takes (n : Nat) (r : ExceptT ε (StateM Bytes) α) : Prop where
  suffix : ∀ bytes, ((ExceptT.run r).run bytes).2 <:+ bytes
  length_le : ∀ {bytes left : Bytes} {a : α},
    (ExceptT.run r).run bytes = (.ok a, left) → left.length + n ≤ bytes.length

theorem run_of_adapt {r : ExceptT ε (StateM Bytes) α} {f : ε → ε'} {bytes left : Bytes} {a : α}
    (h : (ExceptT.run (ExceptT.adapt f r)).run bytes = (.ok a, left)) :
    (ExceptT.run r).run bytes = (.ok a, left) := by
  change ((ExceptT.run r).run bytes).map (Except.mapError f) id = _ at h
  rcases hr : (ExceptT.run r).run bytes with ⟨fault | a', rest⟩
  · rw [hr] at h
    cases h
  · rw [hr] at h
    cases h
    rfl

namespace Takes

theorem of_suffix {r : ExceptT ε (StateM Bytes) α}
    (h : ∀ bytes, ((ExceptT.run r).run bytes).2 <:+ bytes) : Takes 0 r where
  suffix := h
  length_le {bytes left a} hread := by
    have hsuffix := h bytes
    rw [hread] at hsuffix
    exact hsuffix.length_le

theorem pure (a : α) : Takes 0 (Pure.pure a : ExceptT ε (StateM Bytes) α) :=
  of_suffix fun _ => List.suffix_refl _

theorem throw (e : ε) (n : Nat) : Takes n (MonadExcept.throw e : ExceptT ε (StateM Bytes) α) where
  suffix _ := List.suffix_refl _
  length_le hread := by cases hread

theorem throw_bind (e : ε) (f : α → ExceptT ε (StateM Bytes) β) (n : Nat) :
    Takes n (MonadExcept.throw e >>= f) where
  suffix _ := List.suffix_refl _
  length_le hread := by cases hread

theorem mono {r : ExceptT ε (StateM Bytes) α} (h : Takes n r) (hmn : m ≤ n) : Takes m r where
  suffix := h.suffix
  length_le hread := Nat.le_trans (Nat.add_le_add_left hmn _) (h.length_le hread)

theorem bind {r : ExceptT ε (StateM Bytes) α} {f : α → ExceptT ε (StateM Bytes) β} (h : Takes m r)
    (hf : ∀ a, Takes n (f a)) : Takes (m + n) (r >>= f) where
  suffix bytes := by
    have hleft := h.suffix bytes
    rw [ExceptT.run_bind, StateT.run_bind]
    rcases hr : (ExceptT.run r).run bytes with ⟨fault | a, left⟩
    · rw [hr] at hleft
      exact hleft
    · rw [hr] at hleft
      exact ((hf a).suffix left).trans hleft
  length_le hread := by
    obtain ⟨a, rest, hr, hread⟩ := exists_of_run_bind hread
    have hfirst := h.length_le hr
    have hsecond := (hf a).length_le hread
    omega

/-- What follows takes what it likes. -/
theorem bind_first {r : ExceptT ε (StateM Bytes) α} {f : α → ExceptT ε (StateM Bytes) β}
    (h : Takes n r) (hf : ∀ a, Takes 0 (f a)) : Takes n (r >>= f) := h.bind hf

theorem map {r : ExceptT ε (StateM Bytes) α} (h : Takes n r) (f : α → β) :
    Takes n (do return f (← r)) :=
  h.bind_first fun a => pure (f a)

theorem adapt {r : ExceptT ε (StateM Bytes) α} (h : Takes n r) (f : ε → ε') :
    Takes n (ExceptT.adapt f r) where
  suffix := h.suffix
  length_le hread := h.length_le (run_of_adapt hread)

end Takes

/-! ## What frames are made of -/

/-- The bytes of a value begin with the four that tell its kind. -/
theorem Wire.Value.four_le_length_encode (v : Wire.Value) : 4 ≤ v.encode.length := by
  cases v <;> simp [encode]

namespace Frame.Reader

theorem takes_take (n : Nat) : Takes n (take n) where
  suffix bytes := by
    unfold take
    rw [Yields.run_get_bind]
    by_cases hshort : (bytes.take n).length < n
    · rw [if_pos hshort]
      exact List.suffix_refl _
    · rw [if_neg hshort]
      exact List.drop_suffix n bytes
  length_le {bytes left b} hread := by
    unfold take at hread
    rw [Yields.run_get_bind] at hread
    by_cases hshort : (bytes.take n).length < n
    · rw [if_pos hshort] at hread
      cases hread
    · rw [if_neg hshort] at hread
      cases hread
      rw [List.length_take] at hshort
      rw [List.length_drop]
      omega

theorem takes_number (width : Nat) : Takes width (number width) := (takes_take width).map _

theorem takes_byte : Takes 1 byte := (takes_number 1).map _

theorem takes_count : Takes 4 count := (takes_number 4).map _

theorem takes_tag : Takes 1 tag := by
  refine takes_byte.bind_first fun b => ?_
  split
  · exact Takes.pure _
  · exact Takes.throw _ 0

theorem takes_text : Takes 2 text := by
  refine (takes_number 2).bind_first fun n =>
    ((takes_take n).bind_first fun bytes => ?_).mono (Nat.zero_le n)
  split
  · exact Takes.pure _
  · exact Takes.throw _ 0

theorem takes_value : Takes 4 value where
  suffix bytes := by
    unfold value
    rw [Yields.run_get_bind]
    split
    · next v rest hread =>
      obtain ⟨-, hbytes, -⟩ := Wire.Value.fits_of_read hread
      exact ⟨v.encode, hbytes.symm⟩
    · exact List.suffix_refl _
  length_le hread := by
    obtain ⟨-, hbytes⟩ := eq_of_value hread
    rw [hbytes, List.length_append, Nat.add_comm]
    exact Nat.add_le_add_right (Wire.Value.four_le_length_encode _) _

theorem takes_valueAs (what : String) (select : Wire.Value → Option α) :
    Takes 4 (valueAs what select) := by
  refine takes_value.bind_first fun v => ?_
  split
  · exact Takes.pure _
  · exact Takes.throw _ 0

end Frame.Reader

/-! ## The elements of a list -/

namespace Outcome.Reader

open Frame.Reader

theorem takes_outcome : Takes 1 outcome := by
  refine (takes_byte.adapt _).bind_first fun b => ?_
  by_cases hsuccess : b = Frame.success
  · rw [if_pos hsuccess]
    exact Takes.pure ()
  rw [if_neg hsuccess]
  by_cases hunknown : b ≠ Frame.failure
  · rw [if_pos hunknown]
    exact Takes.throw_bind _ _ 0
  rw [if_neg hunknown]
  refine ((takes_tag.adapt _).bind_first fun tag => ?_).mono (Nat.zero_le 1)
  split
  · exact (((takes_valueAs _ _).adapt _).bind_first fun _ => Takes.throw _ 0).mono (Nat.zero_le 4)
  · exact Takes.throw _ 0

theorem takes_requested (captured : Option Name) : Takes 0 (requested captured) := by
  unfold requested
  split
  · exact Takes.pure _
  · exact Takes.throw _ 0

theorem takes_pair : Takes 5 pair :=
  (takes_tag.adapt _).bind fun _ => (takes_valueAs _ _).adapt _

theorem takes_binding (captured : Option Name) : Takes 3 (binding captured) := by
  refine (takes_tag.adapt _).bind (n := 2) fun tag => ?_
  split
  · exact (((takes_valueAs _ _).adapt _).map _).mono (by decide)
  · exact (takes_text.adapt _).bind_first fun k => (takes_requested captured).map _
  · exact Takes.throw _ 2

variable {r : Reader α} {n runs : Nat} {rest left : Bytes} {result : Except ClientFault (List α)}

/-- `Reading r n rest runs result left`: going through the `n` elements that are announced, on `rest`,
is over after `r` was run `runs` times; it comes to `result` and leaves `left`.  The run that ends in
a fault is one of them, also where there is no byte for it. -/
inductive Reading (r : Reader α) :
    Nat → Bytes → Nat → Except ClientFault (List α) → Bytes → Prop
  | all (rest : Bytes) : Reading r 0 rest 0 (.ok []) rest
  | fault {n : Nat} {rest left : Bytes} {fault : ClientFault}
    (h : (ExceptT.run r).run rest = (.error fault, left)) :
    Reading r (n + 1) rest 1 (.error fault) left
  | next {n runs : Nat} {rest rest' left : Bytes} {a : α} {result : Except ClientFault (List α)}
    (h : (ExceptT.run r).run rest = (.ok a, rest')) (hnext : Reading r n rest' runs result left) :
    Reading r (n + 1) rest (runs + 1) (result.map (a :: ·)) left

namespace Reading

theorem suffix (h : Reading r n rest runs result left) (hr : Takes m r) : left <:+ rest := by
  induction h with
  | all => exact List.suffix_refl _
  | @fault _ rest _ _ h =>
    have hsuffix := hr.suffix rest
    rwa [h] at hsuffix
  | @next _ _ rest _ _ _ _ h _ ih =>
    have hsuffix := hr.suffix rest
    rw [h] at hsuffix
    exact ih.trans hsuffix

/-- Every run takes its bytes, only the last one perhaps not. -/
theorem mul_runs_le (h : Reading r n rest runs result left) (hr : Takes m r) :
    m * runs ≤ rest.length + m := by
  induction h with
  | all => exact Nat.zero_le _
  | fault => exact Nat.le_trans (Nat.le_of_eq (Nat.mul_one m)) (Nat.le_add_left m _)
  | next h _ ih =>
    have htaken := hr.length_le h
    rw [Nat.mul_succ]
    omega

/-- There are no more runs than bytes, or there is no byte and one run, which does not succeed. -/
theorem runs_le (h : Reading r n rest runs result left) (hr : Takes m r) (hm : 2 ≤ m) :
    runs ≤ rest.length ∨ rest = [] ∧ runs = 1 ∧ ∃ fault, result = .error fault := by
  have hr := hr.mono hm
  cases h with
  | all => exact .inl (Nat.zero_le _)
  | fault =>
    by_cases hrest : rest = []
    · exact .inr ⟨hrest, rfl, _, rfl⟩
    · exact .inl (List.length_pos_iff.mpr hrest)
  | next hrun hnext =>
    have htaken := hr.length_le hrun
    have hothers := hnext.mul_runs_le hr
    exact .inl (by omega)

/-- A list is read in full or not at all. -/
theorem length_eq (h : Reading r n rest runs result left) {items : List α}
    (hitems : result = .ok items) : items.length = n := by
  induction h generalizing items with
  | all =>
    cases hitems
    rfl
  | fault => cases hitems
  | @next _ _ _ _ _ _ result _ _ ih =>
    cases result with
    | error fault => cases hitems
    | ok others =>
      cases hitems
      exact congrArg (· + 1) (ih rfl)

/-- The elements are read that way. -/
theorem run_elements (h : Reading r n rest runs result left) (done : List α) :
    (ExceptT.run (elements r n done)).run rest = (result.map (done.reverse ++ ·), left) := by
  induction h generalizing done with
  | all rest =>
    simp only [Except.map, List.append_nil]
    rfl
  | fault h =>
    rw [elements_succ, run_bind_of_error h]
    rfl
  | @next _ _ _ _ _ a result h _ ih =>
    rw [elements_succ, run_bind_of_ok h, ih (a :: done)]
    cases result <;> simp [Except.map]

/-- Whatever is announced and whatever there is to read, going through the elements comes to an end. -/
theorem exists_reading (r : Reader α) (n : Nat) (rest : Bytes) :
    ∃ runs result left, Reading r n rest runs result left := by
  induction n generalizing rest with
  | zero => exact ⟨0, .ok [], rest, .all rest⟩
  | succ n ih =>
    rcases h : (ExceptT.run r).run rest with ⟨fault | a, rest'⟩
    · exact ⟨1, _, rest', .fault h⟩
    · obtain ⟨runs, result, left, hnext⟩ := ih rest'
      exact ⟨runs + 1, _, left, .next h hnext⟩

end Reading

/-! ## Whole lists -/

theorem eq_of_outcome {bytes : Bytes} {u : Unit}
    (h : (ExceptT.run outcome).run bytes = (.ok u, left)) : bytes = Frame.success :: left := by
  obtain ⟨b, rest', hbyte, hend⟩ := exists_of_run_bind h
  rw [eq_of_byte (run_of_adapt hbyte)]
  by_cases hsuccess : b = Frame.success
  · rw [if_pos hsuccess] at hend
    cases hend
    rw [hsuccess]
  rw [if_neg hsuccess] at hend
  by_cases hunknown : b ≠ Frame.failure
  · rw [if_pos hunknown] at hend
    cases hend
  -- a fault is read only to be thrown
  rw [if_neg hunknown] at hend
  obtain ⟨tag, rest₂, -, hend⟩ := exists_of_run_bind hend
  split at hend
  · obtain ⟨fault, rest₃, -, hend⟩ := exists_of_run_bind hend
    cases hend
  · cases hend

theorem takes_list (hr : Takes m r) : Takes 5 (list r) := by
  refine (takes_tag.adapt _).bind (n := 4) fun tag => ?_
  split
  · refine (takes_count.adapt _).bind_first fun n => .of_suffix fun rest => ?_
    obtain ⟨runs, result, left, hreading⟩ := Reading.exists_reading r n.toNat rest
    rw [hreading.run_elements []]
    exact hreading.suffix hr
  · exact Takes.throw _ 4

theorem run_list {n : UInt32} (h : Reading r n.toNat rest runs result left) :
    (ExceptT.run (list r)).run (Tag.list.code :: (Frame.writeCount n ++ rest)) = (result, left) := by
  have htag := yields_ofFrame (yields_tag .list) (Frame.writeCount n ++ rest)
  have hcount := yields_ofFrame (yields_count n) rest
  rw [List.singleton_append] at htag
  unfold list
  rw [run_bind_of_ok htag]
  dsimp only
  rw [run_bind_of_ok hcount, h.run_elements []]
  cases result <;> rfl

theorem eq_of_list {bytes : Bytes} {items : List α}
    (h : (ExceptT.run (list r)).run bytes = (.ok items, left)) :
    ∃ (n : UInt32) (rest : Bytes), bytes = Tag.list.code :: (Frame.writeCount n ++ rest) := by
  obtain ⟨tag, rest₁, htag, h⟩ := exists_of_run_bind h
  split at h
  · obtain ⟨n, rest₂, hcount, -⟩ := exists_of_run_bind h
    exact ⟨n, rest₂, by rw [eq_of_tag (run_of_adapt htag), eq_of_count (run_of_adapt hcount)]⟩
  · cases h

/-- What `answer` is to the bytes of a response that lists what `r` reads. -/
structure Within (r : Reader α) (reply : List α → Reply) (bytes : Bytes)
    (answer : Except ClientFault Reply × Bytes) : Prop where
  /-- No more is read than there is. -/
  suffix : answer.2 <:+ bytes
  /-- After the count, whatever it is, the elements are gone through, in no more runs of their reader
  than there are bytes; if there is none, in one that ends in a fault, unless none is announced. -/
  bounded : ∀ (n : UInt32) (rest : Bytes),
    bytes = Frame.success :: Tag.list.code :: (Frame.writeCount n ++ rest) →
    ∃ runs result, Reading r n.toNat rest runs result answer.2 ∧
      (runs ≤ rest.length ∨ rest = [] ∧ runs = 1 ∧ ∃ fault, result = .error fault) ∧
      answer.1 = result.map reply
  /-- What is listed is as much as was announced. -/
  whole : ∀ found, answer.1 = .ok found → ∃ (n : UInt32) (rest : Bytes) (items : List α),
    bytes = Frame.success :: Tag.list.code :: (Frame.writeCount n ++ rest) ∧
    found = reply items ∧ items.length = n.toNat

theorem within_list (hr : Takes m r) (hm : 2 ≤ m) (reply : List α → Reply) (bytes : Bytes) :
    Within r reply bytes ((ExceptT.run (do
      outcome
      return reply (← list r))).run bytes) := by
  have hbounded : ∀ (n : UInt32) (rest : Bytes),
      bytes = Frame.success :: Tag.list.code :: (Frame.writeCount n ++ rest) →
      ∃ runs result left, Reading r n.toNat rest runs result left ∧
        (ExceptT.run (do
          outcome
          return reply (← list r))).run bytes = (result.map reply, left) := by
    rintro n rest rfl
    obtain ⟨runs, result, left, hreading⟩ := Reading.exists_reading r n.toNat rest
    refine ⟨runs, result, left, hreading, ?_⟩
    have houtcome := yields_outcome (Tag.list.code :: (Frame.writeCount n ++ rest))
    rw [List.singleton_append] at houtcome
    rw [run_bind_of_ok houtcome, ExceptT.run_bind, StateT.run_bind, run_list hreading]
    cases result <;> rfl
  refine ⟨?_, fun n rest hbytes => ?_, fun found hfound => ?_⟩
  · exact (takes_outcome.bind fun _ => (takes_list hr).map reply).suffix bytes
  · obtain ⟨runs, result, left, hreading, hrun⟩ := hbounded n rest hbytes
    rw [hrun]
    exact ⟨runs, result, hreading, hreading.runs_le hr hm, rfl⟩
  · obtain ⟨u, rest₁, houtcome, hlist⟩ := exists_of_run_bind (Prod.ext hfound rfl)
    obtain ⟨items, rest₂, hitems, -⟩ := exists_of_run_bind hlist
    obtain ⟨n, rest, rfl⟩ := eq_of_list hitems
    obtain rfl := eq_of_outcome houtcome
    obtain ⟨runs, result, left, hreading, hrun⟩ := hbounded n rest rfl
    rw [hrun] at hfound
    cases result with
    | error fault => cases hfound
    | ok items =>
      cases hfound
      exact ⟨n, rest, items, rfl, rfl, hreading.length_eq rfl⟩

end Outcome.Reader

namespace Outcome

/-- Both responses that list something are read within their bytes, whatever number of results they
announce, by whatever name was asked. -/
theorem decode_within (captured : Option Name) (bytes : Bytes) :
    Reader.Within Reader.pair .pairs bytes (decode .list captured bytes) ∧
      Reader.Within (Reader.binding captured) .bindings bytes
        (decode .listBindings captured bytes) :=
  ⟨Reader.within_list Reader.takes_pair (by decide) .pairs bytes,
    Reader.within_list (Reader.takes_binding captured) (by decide) .bindings bytes⟩

/-- Where one element is announced and no byte is left, the reader of the elements is run, more often
than there are bytes. -/
theorem decode_runs_on_nothing :
    decode .list none (Frame.success :: Tag.list.code :: (Frame.writeCount 1 ++ [])) =
        (.error (.transport (.violation .truncatedFrame)), []) ∧
      (∃ fault, Reader.Reading Reader.pair 1 [] 1 (.error fault) []) ∧
      ∀ (runs : Nat) (result : Except ClientFault (List NameClass)) (left : Bytes),
        Reader.Reading Reader.pair 1 [] runs result left → ¬ runs ≤ ([] : Bytes).length := by
  have hpair : (ExceptT.run Reader.pair).run [] =
      (.error (.transport (.violation .truncatedFrame)), []) := rfl
  refine ⟨rfl, ⟨_, .fault hpair⟩, fun runs result left hreading => ?_⟩
  cases hreading with
  | fault _ => exact Nat.not_succ_le_zero 0
  | next hrun _ =>
    rw [hpair] at hrun
    cases hrun

end Outcome

end NameDirectory
