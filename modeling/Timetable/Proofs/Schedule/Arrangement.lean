import Timetable.Proofs.Schedule.Spelling

/-! A clause is read where it stands, and whether it is read does not depend on its neighbours. -/

namespace Timetable

open Text

inductive Arranged : List (List Char) → List WrittenClause → List (List Char) → Prop where
  | nil : Arranged [] [] []
  | field {fields cs ws} (w : List Char) : Arranged fields cs ws → Arranged (w :: fields) cs (w :: ws)
  | clause {fields cs ws} (c : WrittenClause) : Arranged fields cs ws →
      Arranged fields (c :: cs) (c.pieces ++ ws)

namespace WrittenClause

def text (c : WrittenClause) : String := String.ofList ([' '].intercalate (c.value :: c.trailers))

end WrittenClause

def clauseText? (k : Clause) : List WrittenClause → Option String
  | [] => none
  | c :: cs => if c.clause = k then some c.text else clauseText? k cs

structure Separate (cs : List WrittenClause) : Prop where
  nodup : (cs.map WrittenClause.clause).Nodup
  value_ne_nil : ∀ c ∈ cs, c.value ≠ []

def IsFieldWord (w : List Char) : Prop := ':' ∉ w ∧ isTrailer w = false

instance : DecidablePred IsFieldWord := fun w => inferInstanceAs (Decidable (_ ∧ isTrailer w = false))

variable {k : Clause} {c c' : WrittenClause} {cs cs' : List WrittenClause} {w : List Char}
  {fields us vs ws : List (List Char)}

theorem Separate.perm (h : Separate cs) (hp : cs.Perm cs') : Separate cs' where
  nodup := (hp.map WrittenClause.clause).nodup_iff.1 h.nodup
  value_ne_nil c hc := h.value_ne_nil c (hp.mem_iff.2 hc)

theorem Separate.tail (h : Separate (c :: cs)) : Separate cs where
  nodup := (List.nodup_cons.1 h.nodup).2
  value_ne_nil d hd := h.value_ne_nil d (List.mem_cons_of_mem c hd)

theorem Separate.ne_of_mem (h : Separate (c :: cs)) : ∀ d ∈ cs, d.clause ≠ c.clause := by
  intro d hd he
  exact (List.nodup_cons.1 h.nodup).1 (he ▸ List.mem_map_of_mem hd)

theorem clauseText?_cons : clauseText? k (c :: cs) = (clauseText? k [c]).or (clauseText? k cs) := by
  rw [clauseText?, clauseText?]
  split <;> rfl

theorem clauseText?_perm (h : Separate cs) (hp : cs.Perm cs') : clauseText? k cs = clauseText? k cs' := by
  induction hp with
  | nil => rfl
  | cons c _ ih => rw [clauseText?, clauseText?, ih h.tail]
  | swap c d cs =>
    have hne : c.clause ≠ d.clause := h.ne_of_mem c List.mem_cons_self
    by_cases hd : d.clause = k
    · simp [clauseText?, hd, hd ▸ hne]
    · simp [clauseText?, hd]
  | trans hp _ ih₁ ih₂ => rw [ih₁ h, ih₂ (h.perm hp)]

namespace Parts

variable {p p' q : Parts} {inside : Bool}

def text? (p : Parts) : Clause → Option String
  | .weekOfYear => p.weekOfYear
  | .timezone => p.timezone
  | .endOfDuration => p.endOfDuration

def add (p : Parts) (fields : List (List Char)) (cs : List WrittenClause) : Parts where
  fields := p.fields ++ fields.map String.ofList
  weekOfYear := p.weekOfYear.or (clauseText? .weekOfYear cs)
  timezone := p.timezone.or (clauseText? .timezone cs)
  endOfDuration := p.endOfDuration.or (clauseText? .endOfDuration cs)

@[simp]
theorem add_nil_nil : p.add [] [] = p := by simp [add, clauseText?]

theorem text?_add : (p.add fields cs).text? k = (p.text? k).or (clauseText? k cs) := by cases k <;> rfl

theorem add_field : (p.add [w] []).add fields cs = p.add (w :: fields) cs := by
  simp [add, clauseText?]

theorem add_clause : (p.add [] [c]).add fields cs = p.add fields (c :: cs) := by
  simp only [add, List.map_nil, List.append_nil, Option.or_assoc, ← clauseText?_cons]

theorem add_perm (h : Separate cs) (hp : cs.Perm cs') : p.add fields cs = p.add fields cs' := by
  simp only [add, clauseText?_perm h hp]

theorem text?_of_set? {value : String} (h : p.set? k value = .ok q) :
    p.text? k = none ∧ ∀ j, q.text? j = if j = k then some value else p.text? j := by
  cases k <;> simp only [set?] at h <;> split at h <;> cases h <;> next hp =>
    exact ⟨by simpa [text?] using hp, fun j => by cases j <;> rfl⟩

theorem exists_set?_of_text?_eq_none {value : String} (hp : p.text? k = none) :
    ∃ q, p.set? k value = .ok q := by
  cases k <;> simp only [text?] at hp <;> simp [set?, hp]

theorem addWords_field (hw : IsFieldWord w) : p.addWords inside (w :: ws) = (p.add [w] []).addWords false ws := by
  rw [addWords, clause?_of_not_mem hw.1]
  simp [hw.2, add, clauseText?]

theorem eq_of_text? (hf : p.fields = q.fields) (h : ∀ k, p.text? k = q.text? k) : p = q := by
  cases p
  cases q
  cases hf
  cases h .weekOfYear
  cases h .timezone
  cases h .endOfDuration
  rfl

theorem eq_add_of_set? (hc : c.trailers = []) (h : p.set? c.clause (String.ofList c.value) = .ok q) :
    q = p.add [] [c] := by
  obtain ⟨hp, hq⟩ := text?_of_set? h
  have htext : c.text = String.ofList c.value := by simp [WrittenClause.text, hc]
  refine eq_of_text? ?_ fun k => ?_
  · rw [Schedule.fields_of_set? h]
    simp [add]
  · rw [hq, text?_add, clauseText?, htext]
    by_cases hk : k = c.clause
    · simp [hk, hp]
    · simp [hk, Ne.symm hk, clauseText?]

theorem addWords_pieces_append (hv : c.value ≠ []) (hp : p.text? c.clause = none) :
    p.addWords inside (c.pieces ++ ws) = (p.add [] [c]).addWords (c.clause = .endOfDuration) ws := by
  obtain ⟨q, hq⟩ : ∃ q, p.set? c.clause (String.ofList c.value) = .ok q := exists_set?_of_text?_eq_none hp
  rw [WrittenClause.pieces, List.cons_append, addWords_clause c.clause?_head (Schedule.isEmpty_ofList hv)
    (WrittenClause.ofKeyword?_keyword c.clause) hq]
  by_cases hc : c.clause = .endOfDuration
  · have htext : c.text =
        String.ofList c.value ++ String.ofList (c.trailers.flatMap (' ' :: ·)) := by
      rw [WrittenClause.text, intercalate_cons_eq, String.ofList_append]
    rw [hc, set?_endOfDuration_eq_ok_iff] at hq
    obtain ⟨hnone, rfl⟩ := hq
    simp only [hc, decide_true]
    rw [addWords_trailers_append c.isTrailer_of_mem, ← htext]
    simp [add, clauseText?, hc, hnone]
  · rw [eq_add_of_set? (c.trailers_eq_nil hc) hq, c.trailers_eq_nil hc, List.nil_append]

theorem addWords_of_arranged (ha : Arranged fields cs ws) (hf : ∀ w ∈ fields, IsFieldWord w)
    (hs : Separate cs) (hp : ∀ c ∈ cs, p.text? c.clause = none) :
    p.addWords inside ws = .ok (p.add fields cs) := by
  -- `inside` may be set before a field: its word is no trailer, so it is not read into the bound
  induction ha generalizing p inside with
  | nil => rw [addWords, add_nil_nil]
  | field w _ ih =>
    obtain ⟨hw, hf⟩ := List.forall_mem_cons.1 hf
    rw [addWords_field hw, ih hf hs, add_field]
    intro c hc
    rw [text?_add, hp c hc]
    rfl
  | clause c _ ih =>
    obtain ⟨hc, hp⟩ := List.forall_mem_cons.1 hp
    rw [addWords_pieces_append (hs.value_ne_nil c List.mem_cons_self) hc, ih hf hs.tail, add_clause]
    intro d hd
    rw [text?_add, hp d hd, Option.none_or, clauseText?, if_neg (hs.ne_of_mem d hd).symm]
    rfl

theorem split_of_arranged {text : String} (ha : Arranged fields cs (words text.toList))
    (hf : ∀ w ∈ fields, IsFieldWord w) (hs : Separate cs) :
    split text = .ok (({} : Parts).add fields cs) :=
  addWords_of_arranged ha hf hs fun c _ => by cases c.clause <;> rfl

theorem addWords_cons (h : p.addWords inside (w :: ws) = .ok p') :
    ∃ (q : Parts) (inside' : Bool), q.addWords inside' ws = .ok p' ∧
      (∀ k, (p.text? k).isSome = true → (q.text? k).isSome = true) ∧
      ∀ c : WrittenClause, w = c.head → p.text? c.clause = none ∧ (q.text? c.clause).isSome = true := by
  rw [addWords] at h
  split at h
  · next keyword value hw =>
    split at h
    · cases h
    · split at h
      · cases h
      · next k hk =>
        obtain ⟨q, hq, h⟩ := bind_eq_ok_iff.1 h
        obtain ⟨hnone, hset⟩ := text?_of_set? hq
        refine ⟨q, _, h, fun j hj => ?_, fun c hc => ?_⟩
        · rw [hset]
          split
          · rfl
          · exact hj
        · rw [hc, c.clause?_head, Option.some.injEq, Prod.mk.injEq] at hw
          rw [← hw.1, WrittenClause.ofKeyword?_keyword, Option.some.injEq] at hk
          simp [hk, hnone, hset]
  · next hw =>
    -- a field or a trailer
    have hnot : ∀ c : WrittenClause, w ≠ c.head := by
      rintro c rfl
      rw [c.clause?_head] at hw
      cases hw
    split at h
    · refine ⟨_, _, h, fun k hk => ?_, fun c hc => absurd hc (hnot c)⟩
      cases k
      · exact hk
      · exact hk
      · simpa [text?] using hk
    · exact ⟨_, _, h, fun k hk => by cases k <;> exact hk, fun c hc => absurd hc (hnot c)⟩

theorem addWords_append (h : p.addWords inside (us ++ ws) = .ok p') :
    ∃ (q : Parts) (inside' : Bool), q.addWords inside' ws = .ok p' ∧
      ∀ k, (p.text? k).isSome = true → (q.text? k).isSome = true := by
  induction us generalizing p inside with
  | nil => exact ⟨p, inside, h, fun _ hk => hk⟩
  | cons w us ih =>
    obtain ⟨q, _, h, hkept, -⟩ := addWords_cons h
    obtain ⟨q', _, h, hkept'⟩ := ih h
    exact ⟨q', _, h, fun k hk => hkept' k (hkept k hk)⟩

theorem refused_of_repeated {text : String} (hc : c.clause = c'.clause)
    (hw : words text.toList = us ++ c.head :: (vs ++ c'.head :: ws)) : split text ≠ .ok p := by
  intro h
  rw [split, ofText, hw] at h
  obtain ⟨q, _, h, -⟩ := addWords_append h
  obtain ⟨q, _, h, -, hfirst⟩ := addWords_cons h
  obtain ⟨q', _, h, hkept⟩ := addWords_append h
  obtain ⟨_, _, -, -, hsecond⟩ := addWords_cons h
  have hsome := hkept _ (hfirst c rfl).2
  rw [hc, (hsecond c' rfl).1] at hsome
  cases hsome

end Parts

namespace Schedule

/-- Any text that has these fields in their order and these clauses in whatever order is taken apart into the
same parts and is read alike; and a clause that is there twice is refused. -/
theorem parseExtended_arrangement [TimezoneDatabase] (text : String) :
    (∀ fields cs cs', (∀ w ∈ fields, IsFieldWord w) → Separate cs → cs'.Perm cs →
      Arranged fields cs' (words text.toList) →
        Parts.split text = .ok (({} : Parts).add fields cs) ∧
        parseExtended text = ofParts (({} : Parts).add fields cs)) ∧
    ∀ (c c' : WrittenClause) (us vs ws : List (List Char)), c.clause = c'.clause →
      words text.toList = us ++ c.head :: (vs ++ c'.head :: ws) → ∀ s, parseExtended text ≠ .ok s := by
  constructor
  · intro fields cs cs' hf hs hp ha
    have hsplit := Parts.split_of_arranged ha hf (hs.perm hp.symm)
    rw [← Parts.add_perm hs hp.symm] at hsplit
    refine ⟨hsplit, ?_⟩
    rw [parseExtended, hsplit]
    rfl
  · intro c c' us vs ws hc hw s h
    obtain ⟨p, hp, -⟩ := bind_eq_ok_iff.1 h
    exact Parts.refused_of_repeated hc hw hp

theorem parseExtended_boundAmongFields :
    Parts.split "0 9 EOD:E8H D E[close] * * tz:UTC 1-5" = .ok {
      fields := ["0", "9", "*", "*", "1-5"], timezone := some "UTC",
      endOfDuration := some "E8H D E[close]" } ∧
    ∀ s, parseExtended "0 9 * * 1-5 tz:UTC EOD:E8H TZ:UTC" ≠ .ok s := by
  let bound : WrittenClause := ⟨.endOfDuration, "EOD".toList, "E8H".toList, ["D".toList, "E[close]".toList],
    by decide, by decide, by simp⟩
  let zone : WrittenClause := ⟨.timezone, "tz".toList, "UTC".toList, [], by decide, by simp, by simp⟩
  let zone' : WrittenClause := ⟨.timezone, "TZ".toList, "UTC".toList, [], by decide, by simp, by simp⟩
  have ha : Arranged ["0".toList, "9".toList, "*".toList, "*".toList, "1-5".toList] [bound, zone]
      (words "0 9 EOD:E8H D E[close] * * tz:UTC 1-5".toList) :=
    .field _ (.field _ (.clause bound (.field _ (.field _ (.clause zone (.field _ .nil))))))
  have hs : Separate [zone, bound] := ⟨by decide, by decide⟩
  have hf : ∀ w ∈ ["0".toList, "9".toList, "*".toList, "*".toList, "1-5".toList], IsFieldWord w := by
    decide
  constructor
  · rw [((parseExtended_arrangement _).1 _ _ _ hf hs (.swap ..) ha).1]
    rfl
  · exact (parseExtended_arrangement _).2 zone zone'
      ["0".toList, "9".toList, "*".toList, "*".toList, "1-5".toList] ["EOD:E8H".toList] [] rfl rfl

end Schedule

end Timetable
