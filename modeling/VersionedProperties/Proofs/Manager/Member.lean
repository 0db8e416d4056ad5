import VersionedProperties.Proofs.Manager.Stored
import VersionedProperties.Proofs.Text.LetterCase

/-!
# Members that are read back

The member of an enumeration is stored by its name in lower case. A value is taken for the member
whose name it is in upper case, so a member is read back if its name is the upper case of its lower
case, as the names of capital letters, digits and underscores are. It is lost if its name has a
small letter: then the value names another member or none, and if it names none, the default is
read in its place.
-/

namespace VersionedProperties

namespace Enumeration

/-- A value, with a default beside it, is taken for a member: the value names the member, or it
names none and the default names the member. -/
def ReadsAs (e : Enumeration) (value : Text) (default : Except Error (Option Text))
    (name : Text) : Prop :=
  Text.upper (Text.trim value) = name ∨
    Text.upper (Text.trim value) ∉ e.members ∧
      ∃ d, default = .ok (some d) ∧ Text.upper (Text.trim d) = name

theorem parse_eq_ok_iff {e : Enumeration} {name : Text} (hname : name ∈ e.members)
    (value : Text) : e.parse value = .ok name ↔ Text.upper (Text.trim value) = name := by
  unfold parse
  dsimp only
  split
  · exact ⟨Except.ok.inj, congrArg Except.ok⟩
  · rename_i hnone
    constructor
    · exact fun h => nomatch h
    · rintro rfl
      exact absurd hname hnone

theorem parse_eq_error {e : Enumeration} {value : Text}
    (h : Text.upper (Text.trim value) ∉ e.members) :
    e.parse value = .error (.notMember value e.name) := if_neg h

end Enumeration

namespace Manager

theorem trim_trimmed (m : Manager) (t : Text) : Text.trim (m.trimmed t) = Text.trim t := by
  unfold trimmed
  split
  · exact Text.trim_trim t
  · rfl

theorem mem_of_mem_trimmed {m : Manager} {t : Text} {c : CodePoint} (hc : c ∈ m.trimmed t) :
    c ∈ t := by
  unfold trimmed at hc
  split at hc
  · exact Text.mem_of_mem_trim hc
  · exact hc

/-- What a value is taken for can be told from the value and the default. -/
theorem parsedOrDefault_member_iff {e : Enumeration} {name : Text} (hname : name ∈ e.members)
    (m : Manager) (k : Key) (value : Text) :
    m.parsedOrDefault k e.parse value = .ok name ↔ e.ReadsAs value (m.defaultValue k) name := by
  unfold parsedOrDefault Enumeration.ReadsAs
  by_cases hmember : Text.upper (Text.trim value) ∈ e.members
  · have hparse : e.parse value = .ok (Text.upper (Text.trim value)) := if_pos hmember
    rw [hparse]
    simp only [hmember, not_true_eq_false, false_and, or_false, Except.ok.injEq]
  · have hne : ¬ Text.upper (Text.trim value) = name := by
      rintro rfl
      exact hmember hname
    rw [Enumeration.parse_eq_error hmember]
    simp only [hmember, not_false_eq_true, true_and, hne, false_or]
    cases m.defaultValue k with
    | error err => simp
    | ok default =>
        cases default with
        | none => simp
        | some d => simp [Enumeration.parse_eq_ok_iff hname]

namespace Session

variable {s t : Session} {k : Key} {e : Enumeration} {name : Text}

theorem reads_member (k : Key) (e : Enumeration) :
    Reads (.member e) k fun m => (m.getMember k e).1.map .member :=
  reads_of_query (fun _ _ => rfl) fun _ _ _ => rfl

section Stored

variable (h : Stores k (Text.lower name) s t) (hk : k ∈ s.manager.naming.type.keys)
  (hname : name ∈ e.members)

include h hk hname

/-- Where a member is stored, it is read just if the expansion of its name in lower case is taken
for it. -/
theorem Stores.answer_member_iff :
    (t.step (.property k (.member e))).1.answer = .ok (.member name) ↔
      s.manager.naming.type.faults.name = none ∧
        ∃ value, s.manager.evaluator.evaluate t.manager.retrieve (some (s.manager.nameOf k))
            (s.manager.trimmed (Text.lower name)) = .ok value ∧
          e.ReadsAs value (t.manager.defaultValue k) name := by
  rw [h.answer hk (reads_member k e) fun _ => rfl, told]
  cases hfault : s.manager.naming.type.faults.name with
  | some fault => simp
  | none =>
      rw [getMember, parsed_fst, h.required_eq hfault]
      cases s.manager.evaluator.evaluate t.manager.retrieve (some (s.manager.nameOf k))
          (s.manager.trimmed (Text.lower name)) with
      | error err => simp [Except.mapError, Except.bind, Except.map]
      | ok value =>
          have hparsed := parsedOrDefault_member_iff hname t.manager k value
          have hanswer : (t.manager.parsedOrDefault k e.parse value).map Answer.member =
              .ok (.member name) ↔ t.manager.parsedOrDefault k e.parse value = .ok name := by
            cases t.manager.parsedOrDefault k e.parse value <;> simp [Except.map]
          simpa [Except.mapError, Except.bind] using hanswer.trans hparsed

/-- A name without markers is taken for what it is in lower case. -/
theorem Stores.answer_member_iff_of_not_mem (hmarker : CodePoint.marker ∉ name) :
    (t.step (.property k (.member e))).1.answer = .ok (.member name) ↔
      s.manager.naming.type.faults.name = none ∧
        e.ReadsAs (Text.lower name) (t.manager.defaultValue k) name := by
  have hfree : CodePoint.marker ∉ s.manager.trimmed (Text.lower name) :=
    fun hmem => hmarker (Text.mem_of_mem_lower (mem_of_mem_trimmed hmem) (by decide))
  rw [h.answer_member_iff hk hname, Template.evaluate_of_not_mem _ _ _ hfree]
  simp only [Except.ok.injEq, exists_eq_left', Enumeration.ReadsAs, trim_trimmed]

/-- A word of capital letters, digits and underscores is taken for itself. -/
theorem Stores.answer_member_of_isNameWord (hword : name.IsNameWord) :
    (t.step (.property k (.member e))).1.answer = s.manager.told (.ok (.member name)) := by
  have hmarker : CodePoint.marker ∉ name := by
    intro hmem
    exact absurd (hword _ hmem) (by decide)
  have hreads : e.ReadsAs (Text.lower name) (t.manager.defaultValue k) name := by
    left
    rw [Text.trim_lower_of_isNameWord hword, Text.upper_lower_of_isNameWord hword]
  cases hfault : s.manager.naming.type.faults.name with
  | some fault =>
      rw [h.answer hk (reads_member k e) fun _ => rfl, told, told, hfault]
  | none =>
      rw [(h.answer_member_iff_of_not_mem hk hname hmarker).2 ⟨hfault, hreads⟩, told, hfault]

end Stored

/-- A member that has been set is read back just if the expansion of its name in lower case is taken
for it. For a name without markers that is so if it is the upper case of its lower case, blanks at
the ends apart, or if it is the name of the default in place of a value that names nothing. For a
word of capital letters, digits and underscores it is always so. -/
theorem member_read_back_iff (h : s.IsQuiet k) (hname : name ∈ e.members)
    {questions : List Command} (hquestions : ∀ c ∈ questions, c.spares true = true) :
    let set := s.step (.property k (.set (some (.member name))))
    let t := (set.2.run questions).2
    let answer := (t.step (.property k (.member e))).1.answer
    set.1.answer = s.manager.told
        (.ok (.flag (s.manager.store.get (s.manager.nameOf k) ≠ some (Text.lower name)))) ∧
      (answer = .ok (.member name) ↔ s.manager.naming.type.faults.name = none ∧
        ∃ value, s.manager.evaluator.evaluate t.manager.retrieve (some (s.manager.nameOf k))
            (s.manager.trimmed (Text.lower name)) = .ok value ∧
          e.ReadsAs value (t.manager.defaultValue k) name) ∧
      (CodePoint.marker ∉ name → (answer = .ok (.member name) ↔
        s.manager.naming.type.faults.name = none ∧
          e.ReadsAs (Text.lower name) (t.manager.defaultValue k) name)) ∧
      (name.IsNameWord → answer = s.manager.told (.ok (.member name))) := by
  intro set t answer
  obtain ⟨hset, hstores⟩ := h.stores_set (v := .member name) rfl
  have ht : Stores k (Text.lower name) s t := hstores.run hquestions
  exact ⟨hset, ht.answer_member_iff h.declared hname,
    ht.answer_member_iff_of_not_mem h.declared hname,
    ht.answer_member_of_isNameWord h.declared hname⟩

/-- An enumeration of colors of which one is named in small letters. -/
def mixedCase : Enumeration := ⟨"Color", ["red", "GREEN"]⟩

/-- A session with a key whose default is a color, and a key without default. -/
def painted : Session :=
  let type : KeyType := { name := "Keys", members := [("A", some "GREEN"), ("B", none)] }
  let m := create {} (.ofText "colors.properties") (.ofList [("a", "GREEN")]) (.standard type)
    none none .external
  (start m { now := .newYear }).withStore (m.store.after [.load .empty])

theorem isQuiet_painted {k : Key} (hk : k ∈ [("A" : Text), "B"]) : painted.IsQuiet k where
  reached := (Reached.start ..).changes _
  loaded := by cbv
  declared := by
    have hkeys : painted.manager.naming.type.keys = [("A" : Text), "B"] := by cbv
    rwa [hkeys]
  spares := by
    have hreactions : painted.reactions.entries = [] := by cbv
    intro listener r _ hr
    rw [Mapping.find?_eq_some_iff, hreactions] at hr
    cases hr

theorem member_read_back_iff_painted :
    ((painted.step (.property "A" (.set (some (.member "GREEN"))))).2.step
      (.property "A" (.member mixedCase))).1.answer = .ok (.member "GREEN") := by
  have hgreen : ("GREEN" : Text) ∈ mixedCase.members := by decide
  have hword : Text.IsNameWord "GREEN" := by decide
  have htold : painted.manager.naming.type.faults.name = none := by cbv
  have hread := (member_read_back_iff (isQuiet_painted (k := "A") (by decide)) hgreen
    (List.forall_mem_nil _)).2.2.2 hword
  rwa [told, htold] at hread

/-- The session in which a key has been set to the member that is named in small letters. -/
def paintedRed (k : Key) : Session := (painted.step (.property k (.set (some (.member "red"))))).2

/-- The member whose name has small letters is stored as its name, and the name is read as that of
no member: the default is read in its place, and without default there is an error. -/
theorem not_member_read_back_mixedCase :
    Enumeration.declare "Color" ["red", "GREEN"] = .ok mixedCase ∧
      ("red" : Text) ∈ mixedCase.members ∧ painted.IsQuiet "A" ∧ painted.IsQuiet "B" ∧
      ((paintedRed "A").step (.property "A" .raw)).1.answer = .ok (.value (some "red")) ∧
      ((paintedRed "A").step (.property "A" (.member mixedCase))).1.answer =
        .ok (.member "GREEN") ∧
      ((paintedRed "B").step (.property "B" (.member mixedCase))).1.answer =
        .error (.notMember "red" "Color") := by
  have hred : Text.upper (Text.trim "red") ∉ mixedCase.members := by decide +kernel
  have hanswer : ∀ k ∈ [("A" : Text), "B"],
      ((paintedRed k).step (.property k (.member mixedCase))).1.answer =
        ((paintedRed k).manager.parsedOrDefault k mixedCase.parse "red").map .member := by
    intro k hk
    have hstored : TypedValue.stored (.member "red") = .ok ("red" : Text) := by
      with_unfolding_all rfl
    have hstores := ((isQuiet_painted hk).stores_set hstored).2
    exact hstores.answer_parsed (isQuiet_painted hk).declared (by decide) (reads_member k mixedCase)
  refine ⟨rfl, by decide, isQuiet_painted (by decide), isQuiet_painted (by decide),
    by with_unfolding_all rfl, ?_, ?_⟩
  · have hdefaultRaw : (paintedRed "A").manager.defaultRaw "A" = some ("GREEN" : Text) := by
      decide +kernel
    have hverbatim : Text.IsVerbatim "GREEN" := by decide
    have hdefault : (paintedRed "A").manager.defaultValue "A" = .ok (some ("GREEN" : Text)) := by
      rw [defaultValue, hdefaultRaw, expanded_of_evaluate (hverbatim.evaluate_eq ..)]
    have hgreen : ("GREEN" : Text) ∈ mixedCase.members := by decide
    have hreads : mixedCase.ReadsAs "red" (.ok (some "GREEN")) "GREEN" :=
      .inr ⟨hred, "GREEN", rfl, by decide +kernel⟩
    rw [hanswer "A" (by decide), (parsedOrDefault_member_iff hgreen ..).2 (hdefault ▸ hreads)]
    rfl
  · have hdefaultRaw : (paintedRed "B").manager.defaultRaw "B" = none := by decide +kernel
    have hdefault : (paintedRed "B").manager.defaultValue "B" = .ok none := by
      rw [defaultValue, hdefaultRaw]
      rfl
    rw [hanswer "B" (by decide), parsedOrDefault, Enumeration.parse_eq_error hred, hdefault]
    rfl

end Session

end Manager

end VersionedProperties
