import InferenceConfig.Proofs.Wire.Spelling
import InferenceConfig.Wire.Skip

/-!
# Complete Bodies

What may follow a key is given here as a grammar. A body is a variable-length integer, four
or eight bytes, a length with as many bytes, or the members of a group up to the key that
ends the group. The members of a group are complete records with any field numbers. The end
of a group is no body.

Every body has a depth: one for a body that is no group, and one more than the greatest
depth of the members for a group, which is one if the group is empty. Skipping succeeds
exactly on the bodies whose depth is within the budget.

## Main definitions

* `Wire.FlatBody`, `Wire.Body`, `Wire.Members` — bodies that are no group, all bodies, and
  sequences of records;
* `Wire.Closes` — what the groups that are open demand of the bytes.

## Main results

* `Wire.closes_of_skipGroups` — what is skipped has the form that the open groups demand;
* `Wire.skipGroups_members` — members of an open group are passed over;
* `Wire.skip_eq_ok_iff`, `Wire.skip_of_lt` — skipping accepts exactly the bodies within the
  budget, whatever follows, and refuses those beyond it for their depth;
* `Wire.Body.append_inj` — a body at the start of bytes is determined by its key.
-/

namespace InferenceConfig

namespace Wire

/-- The bodies that are no group. -/
inductive FlatBody : (wireType : WireType) → (bytes : List UInt8) → Prop
  | varint {n : Nat} {spelling : List UInt8} :
      Varint.IsSpelling spelling n → FlatBody .varint spelling
  | sixtyFourBit {bytes : List UInt8} : bytes.length = 8 → FlatBody .sixtyFourBit bytes
  | lengthDelimited {length content : List UInt8} :
      Varint.IsSpelling length content.length →
      FlatBody .lengthDelimited (length ++ content)
  | thirtyTwoBit {bytes : List UInt8} : bytes.length = 4 → FlatBody .thirtyTwoBit bytes

mutual

/-- The complete bodies that may follow a key, with their depth. -/
inductive Body : (key : Key) → (depth : Nat) → (bytes : List UInt8) → Prop
  | flat {key : Key} {bytes : List UInt8} :
      FlatBody key.wireType bytes → Body key 1 bytes
  | group {number depth : Nat} {members stop : List UInt8} :
      Members depth members → Key.IsSpelling stop ⟨number, .endGroup⟩ →
      Body ⟨number, .startGroup⟩ (depth + 1) (members ++ stop)

/-- The sequences of complete records, with the greatest depth of their bodies. -/
inductive Members : (depth : Nat) → (bytes : List UInt8) → Prop
  | nil : Members 0 []
  | cons {key : Key} {depth later : Nat} {start body rest : List UInt8} :
      Key.IsSpelling start key → Body key depth body → Members later rest →
      Members (max depth later) (start ++ (body ++ rest))

end

/-- What open groups, the innermost first, demand of the bytes before `rest`: for each of
them members within the budget and the key that ends it. -/
inductive Closes (budget : Nat) (rest : List UInt8) :
    (groups : List Nat) → (bytes : List UInt8) → Prop
  | nil : Closes budget rest [] rest
  | cons {number depth : Nat} {outer : List Nat} {members stop bytes : List UInt8} :
      Members depth members → depth + (outer.length + 1) ≤ budget →
      Key.IsSpelling stop ⟨number, .endGroup⟩ → Closes budget rest outer bytes →
      Closes budget rest (number :: outer) (members ++ (stop ++ bytes))

/-- What is skipped takes one level at least. -/
theorem Body.depth_pos {key : Key} {depth : Nat} {bytes : List UInt8}
    (h : Body key depth bytes) : 1 ≤ depth := by
  cases h with
  | flat _ => exact Nat.le_refl 1
  | group _ _ => exact Nat.le_add_left 1 _

/-- The start of a group is not flat. -/
theorem FlatBody.ne_startGroup {wireType : WireType} {bytes : List UInt8}
    (h : FlatBody wireType bytes) : wireType ≠ .startGroup := by
  rintro rfl
  cases h

/-- The end of a group is not flat. -/
theorem FlatBody.ne_endGroup {wireType : WireType} {bytes : List UInt8}
    (h : FlatBody wireType bytes) : wireType ≠ .endGroup := by
  rintro rfl
  cases h

/-! ### Flat bodies -/

/-- Exactly as many bytes are skipped as are asked for. -/
theorem skipBytes_eq_ok_iff {count : Nat} {bytes rest : List UInt8} :
    skipBytes count bytes = .ok rest ↔
      ∃ body, bytes = body ++ rest ∧ body.length = count := by
  rw [skipBytes]
  constructor
  · intro h
    split at h
    · next hle =>
        obtain rfl := Except.ok.inj h
        exact ⟨bytes.take count, (List.take_append_drop count bytes).symm,
          List.length_take_of_le hle⟩
    · simp at h
  · rintro ⟨body, rfl, rfl⟩
    rw [if_pos (by simp), List.drop_left]

/-- Skipping a body that is no group accepts exactly those bodies, whatever follows. -/
theorem skipFlat_eq_ok_iff {wireType : WireType} {bytes rest : List UInt8}
    (hflat : wireType ≠ .startGroup) :
    skipFlat wireType bytes = .ok rest ↔
      ∃ body, bytes = body ++ rest ∧ FlatBody wireType body := by
  constructor
  · intro h
    cases wireType with
    | varint =>
        simp only [skipFlat] at h
        split at h
        · simp at h
        · next n tail hread =>
            obtain rfl := Except.ok.inj h
            obtain ⟨spelling, rfl, hspelling⟩ := Varint.read?_eq_some_iff.mp hread
            exact ⟨spelling, rfl, .varint hspelling⟩
    | sixtyFourBit =>
        obtain ⟨body, rfl, hlength⟩ := skipBytes_eq_ok_iff.mp h
        exact ⟨body, rfl, .sixtyFourBit hlength⟩
    | lengthDelimited =>
        simp only [skipFlat] at h
        split at h
        · simp at h
        · next n tail hread =>
            obtain ⟨length, rfl, hlength⟩ := Varint.read?_eq_some_iff.mp hread
            obtain ⟨content, rfl, rfl⟩ := skipBytes_eq_ok_iff.mp h
            exact ⟨length ++ content, (List.append_assoc ..).symm,
              .lengthDelimited hlength⟩
    | startGroup => exact absurd rfl hflat
    | endGroup => simp [skipFlat] at h
    | thirtyTwoBit =>
        obtain ⟨body, rfl, hlength⟩ := skipBytes_eq_ok_iff.mp h
        exact ⟨body, rfl, .thirtyTwoBit hlength⟩
  · rintro ⟨body, rfl, h⟩
    cases h with
    | varint hspelling => simp only [skipFlat, hspelling.read? rest]
    | sixtyFourBit hlength => exact skipBytes_eq_ok_iff.mpr ⟨body, rfl, hlength⟩
    | @lengthDelimited length content hlength =>
        rw [List.append_assoc]
        simp only [skipFlat, hlength.read? (content ++ rest)]
        exact skipBytes_eq_ok_iff.mpr ⟨content, rfl, rfl⟩
    | thirtyTwoBit hlength => exact skipBytes_eq_ok_iff.mpr ⟨body, rfl, hlength⟩

/-! ### Open groups -/

/-- What is skipped has the form that the open groups demand. Induction on the run: a group
that starts is one more demand, and the demand that it leaves becomes a member. -/
theorem closes_of_skipGroups {budget : Nat} {groups : List Nat}
    {bytes rest : List UInt8} (hgroups : groups.length ≤ budget)
    (h : skipGroups budget groups bytes = .ok rest) : Closes budget rest groups bytes := by
  fun_induction skipGroups budget groups bytes with
  | case1 bytes =>
      obtain rfl := Except.ok.inj h
      exact .nil
  | case2 => simp at h
  | case3 bytes outer key tail hread hend ih =>
      obtain ⟨stop, rfl, hstop⟩ := Key.read_eq_ok_iff.mp hread
      obtain ⟨number, wireType⟩ := key
      obtain rfl : wireType = .endGroup := hend
      rw [List.length_cons] at hgroups
      exact .cons .nil (by omega) hstop (ih (by omega) h)
  | case4 => simp at h
  | case5 => simp at h
  | case6 bytes number outer key tail hread hend hdeep hstart ih =>
      obtain ⟨start, rfl, hspelling⟩ := Key.read_eq_ok_iff.mp hread
      obtain ⟨inner, wireType⟩ := key
      obtain rfl : wireType = .startGroup := hstart
      rw [List.length_cons] at hdeep
      -- The group that starts here becomes a member of the group around it.
      cases ih (by simp only [List.length_cons]; omega) h with
      | @cons _ depth _ members stop _ hmembers hbudget hstop hclose =>
          cases hclose with
          | @cons _ later _ members' stop' bytes' hmembers' hbudget' hstop' hclose' =>
              have hbody := Body.group hmembers hstop
              have hall := Members.cons hspelling hbody hmembers'
              rw [List.length_cons] at hbudget
              have happend : start ++ (members ++ (stop ++ (members' ++ (stop' ++ bytes'))))
                  = (start ++ ((members ++ stop) ++ members')) ++ (stop' ++ bytes') := by
                simp only [List.append_assoc]
              rw [happend]
              exact .cons hall (by omega) hstop' hclose'
  | case7 => simp at h
  | case8 bytes number outer key tail hread hend hdeep hstart tail' hskip ih =>
      obtain ⟨start, rfl, hspelling⟩ := Key.read_eq_ok_iff.mp hread
      obtain ⟨body, rfl, hflat⟩ := (skipFlat_eq_ok_iff hstart).mp hskip
      rw [List.length_cons] at hdeep
      cases ih hgroups h with
      | @cons _ depth _ members stop bytes' hmembers hbudget hstop hclose =>
          have hall := Members.cons hspelling (.flat hflat) hmembers
          have happend : start ++ (body ++ (members ++ (stop ++ bytes')))
              = (start ++ (body ++ members)) ++ (stop ++ bytes') := by
            simp only [List.append_assoc]
          rw [happend]
          exact .cons hall (by omega) hstop hclose

/-- One step of skipping, once the key is read. -/
theorem skipGroups_of_read {budget number : Nat} {outer : List Nat} {key : Key}
    {bytes rest : List UInt8} (hread : Key.read bytes = .ok (key, rest)) :
    skipGroups budget (number :: outer) bytes =
      if key.wireType = .endGroup then
        if key.number = number then skipGroups budget outer rest
        else .error .unexpectedEndGroup
      else if budget ≤ outer.length + 1 then .error .recursionLimit
      else if key.wireType = .startGroup then
        skipGroups budget (key.number :: number :: outer) rest
      else
        match skipFlat key.wireType rest with
        | .error fault => .error fault
        | .ok tail => skipGroups budget (number :: outer) tail := by
  rw [skipGroups]
  split
  · next h => simp [hread] at h
  · next h =>
      rw [hread, Except.ok.injEq, Prod.mk.injEq] at h
      obtain ⟨rfl, rfl⟩ := h
      rw [List.length_cons]
      congr 4
      cases skipFlat key.wireType rest with
      | error fault => rfl
      | ok tail => rfl

/-- The end of the innermost open group. -/
theorem skipGroups_stop {budget number : Nat} {outer : List Nat} {stop : List UInt8}
    (hstop : Key.IsSpelling stop ⟨number, .endGroup⟩) (rest : List UInt8) :
    skipGroups budget (number :: outer) (stop ++ rest) = skipGroups budget outer rest := by
  rw [skipGroups_of_read (hstop.read rest), if_pos rfl, if_pos rfl]

/-- The start of one more group. -/
theorem skipGroups_start {budget inner number : Nat} {outer : List Nat}
    {start : List UInt8} (hstart : Key.IsSpelling start ⟨inner, .startGroup⟩)
    (hbudget : outer.length + 1 < budget) (rest : List UInt8) :
    skipGroups budget (number :: outer) (start ++ rest) =
      skipGroups budget (inner :: number :: outer) rest := by
  rw [skipGroups_of_read (hstart.read rest), if_neg (by simp),
    if_neg (Nat.not_le_of_lt hbudget), if_pos rfl]

/-- A member that is no group. -/
theorem skipGroups_flat {budget number : Nat} {outer : List Nat} {key : Key}
    {start body : List UInt8} (hstart : Key.IsSpelling start key)
    (hbody : FlatBody key.wireType body) (hbudget : outer.length + 1 < budget)
    (rest : List UInt8) :
    skipGroups budget (number :: outer) (start ++ (body ++ rest)) =
      skipGroups budget (number :: outer) rest := by
  have hskip : skipFlat key.wireType (body ++ rest) = .ok rest :=
    (skipFlat_eq_ok_iff hbody.ne_startGroup).mpr ⟨body, rfl, hbody⟩
  rw [skipGroups_of_read (hstart.read (body ++ rest)), if_neg hbody.ne_endGroup,
    if_neg (Nat.not_le_of_lt hbudget), if_neg hbody.ne_startGroup, hskip]

mutual

/-- A record of an open group is passed over if its depth is within what is left of the
budget. -/
theorem skipGroups_record {budget number : Nat} {outer : List Nat}
    {start rest : List UInt8} : {key : Key} → {depth : Nat} → {body : List UInt8} →
    Key.IsSpelling start key → Body key depth body →
    depth + (outer.length + 1) ≤ budget →
    skipGroups budget (number :: outer) (start ++ (body ++ rest)) =
      skipGroups budget (number :: outer) rest
  | _, _, _, hstart, .flat hbody, hbudget =>
      skipGroups_flat hstart hbody (by omega) rest
  | _, _, _, hstart, .group hmembers hstop, hbudget => by
      rw [List.append_assoc, skipGroups_start hstart (by omega),
        skipGroups_members hmembers (by rw [List.length_cons]; omega),
        skipGroups_stop hstop]

/-- The members of an open group are passed over if their depth is within what is left of
the budget. -/
theorem skipGroups_members {budget number : Nat} {outer : List Nat} {rest : List UInt8} :
    {depth : Nat} → {members : List UInt8} → Members depth members →
    depth + (outer.length + 1) ≤ budget →
    skipGroups budget (number :: outer) (members ++ rest) =
      skipGroups budget (number :: outer) rest
  | _, _, .nil, _ => rfl
  | _, _, .cons hstart hbody hmembers, hbudget => by
      rw [List.append_assoc, List.append_assoc,
        skipGroups_record hstart hbody (by omega),
        skipGroups_members hmembers (by omega)]

end

/-! ### Skipping -/

/-- Skipping accepts exactly the bodies whose depth is within the budget, whatever
follows. -/
theorem skip_eq_ok_iff {budget : Nat} {key : Key} {bytes rest : List UInt8} :
    skip budget key bytes = .ok rest ↔
      ∃ body depth, bytes = body ++ rest ∧ Body key depth body ∧ depth ≤ budget := by
  rw [skip]
  constructor
  · intro h
    split at h
    · simp at h
    · split at h
      · next hstart =>
          obtain ⟨number, wireType⟩ := key
          obtain rfl : wireType = .startGroup := hstart
          cases closes_of_skipGroups (by simp only [List.length_singleton]; omega) h with
          | @cons _ depth _ members stop _ hmembers hbudget hstop hclose =>
              cases hclose
              rw [List.length_nil] at hbudget
              exact ⟨members ++ stop, depth + 1, (List.append_assoc ..).symm,
                .group hmembers hstop, by omega⟩
      · next hstart =>
          obtain ⟨body, rfl, hbody⟩ := (skipFlat_eq_ok_iff hstart).mp h
          exact ⟨body, 1, rfl, .flat hbody, by omega⟩
  · rintro ⟨body, depth, rfl, hbody, hbudget⟩
    have hpos := hbody.depth_pos
    rw [if_neg (by omega)]
    cases hbody with
    | flat hbody =>
        rw [if_neg hbody.ne_startGroup]
        exact (skipFlat_eq_ok_iff hbody.ne_startGroup).mpr ⟨body, rfl, hbody⟩
    | group hmembers hstop =>
        rw [if_pos rfl, List.append_assoc,
          skipGroups_members hmembers (by rw [List.length_nil]; omega),
          skipGroups_stop hstop, skipGroups]

/-- A body at the start of bytes is determined by its key. -/
theorem Body.append_inj {key : Key} {depth₁ depth₂ : Nat}
    {body₁ body₂ rest₁ rest₂ : List UInt8} (h₁ : Body key depth₁ body₁)
    (h₂ : Body key depth₂ body₂) (happend : body₁ ++ rest₁ = body₂ ++ rest₂) :
    body₁ = body₂ ∧ rest₁ = rest₂ := by
  have hskip₁ : skip (max depth₁ depth₂) key (body₁ ++ rest₁) = .ok rest₁ :=
    skip_eq_ok_iff.mpr ⟨body₁, depth₁, rfl, h₁, Nat.le_max_left ..⟩
  have hskip₂ : skip (max depth₁ depth₂) key (body₂ ++ rest₂) = .ok rest₂ :=
    skip_eq_ok_iff.mpr ⟨body₂, depth₂, rfl, h₂, Nat.le_max_right ..⟩
  rw [happend, hskip₂, Except.ok.injEq] at hskip₁
  subst hskip₁
  exact ⟨List.append_cancel_right happend, rfl⟩

/-! ### Too deep for the budget -/

mutual

/-- A record of an open group ends the skipping if its depth is beyond what is left of the
budget. It need not come to the innermost member: the first one beyond the budget decides. -/
theorem skipGroups_record_of_lt {budget number : Nat} {outer : List Nat}
    {start rest : List UInt8} : {key : Key} → {depth : Nat} → {body : List UInt8} →
    Key.IsSpelling start key → Body key depth body →
    outer.length + 1 ≤ budget → budget < depth + (outer.length + 1) →
    skipGroups budget (number :: outer) (start ++ (body ++ rest)) =
      .error .recursionLimit
  | _, _, _, hstart, .flat hbody, _, hdepth => by
      rw [skipGroups_of_read (hstart.read _), if_neg hbody.ne_endGroup, if_pos (by omega)]
  | _, _, _, hstart, .group hmembers hstop, hopen, hdepth => by
      by_cases hlast : budget ≤ outer.length + 1
      · rw [skipGroups_of_read (hstart.read _), if_neg (by simp), if_pos hlast]
      · rw [List.append_assoc, skipGroups_start hstart (Nat.lt_of_not_le hlast),
          skipGroups_members_of_lt hmembers (by rw [List.length_cons]; omega)
            (by rw [List.length_cons]; omega)]

/-- The members of an open group end the skipping if their depth is beyond what is left of
the budget. -/
theorem skipGroups_members_of_lt {budget number : Nat} {outer : List Nat}
    {rest : List UInt8} : {depth : Nat} → {members : List UInt8} → Members depth members →
    outer.length + 1 ≤ budget → budget < depth + (outer.length + 1) →
    skipGroups budget (number :: outer) (members ++ rest) = .error .recursionLimit
  | _, _, .nil, _, hdepth => by omega
  | _, _, @Members.cons _ depth _ _ _ _ hstart hbody hmembers, hopen, hdepth => by
      rw [List.append_assoc, List.append_assoc]
      by_cases hfirst : budget < depth + (outer.length + 1)
      · exact skipGroups_record_of_lt hstart hbody hopen hfirst
      · rw [skipGroups_record hstart hbody (Nat.le_of_not_lt hfirst),
          skipGroups_members_of_lt hmembers hopen (by omega)]

end

/-- Skipping refuses a body whose depth is beyond the budget, whatever follows. -/
theorem skip_of_lt {budget depth : Nat} {key : Key} {body : List UInt8}
    (hbody : Body key depth body) (hdepth : budget < depth) (rest : List UInt8) :
    skip budget key (body ++ rest) = .error .recursionLimit := by
  rw [skip]
  by_cases hnone : budget = 0
  · rw [if_pos hnone]
  · rw [if_neg hnone]
    cases hbody with
    | flat _ => omega
    | group hmembers _ =>
        rw [if_pos rfl, List.append_assoc,
          skipGroups_members_of_lt hmembers (by rw [List.length_nil]; omega)
            (by rw [List.length_nil]; omega)]

end Wire

end InferenceConfig
