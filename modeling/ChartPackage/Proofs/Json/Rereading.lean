import Mathlib
import ChartPackage.Proofs.Json.Literals

/-!
Values are read back from the text that they are written as. What follows a value must not go on
with a number, which nothing does that is written behind one.
-/

namespace ChartPackage.Json

/-! ### Strings -/

theorem unit?_append {t rest : Text} {n : Nat} (h : unit? t = some (n, [])) :
    unit? (t ++ rest) = some (n, rest) := by
  unfold unit? at h
  split at h
  · next a b c d t =>
      obtain ⟨a', ha, h⟩ := Option.bind_eq_some_iff.mp h
      obtain ⟨b', hb, h⟩ := Option.bind_eq_some_iff.mp h
      obtain ⟨c', hc, h⟩ := Option.bind_eq_some_iff.mp h
      obtain ⟨d', hd, h⟩ := Option.bind_eq_some_iff.mp h
      obtain ⟨rfl, rfl⟩ := Prod.mk.inj (Option.some.inj h)
      simp [unit?, ha, hb, hc, hd]
  · cases h

/-- The escape of a control character names it. -/
theorem unicodeEscape?_hexPair {c : Char} (hc : c.toNat < 0x20) (rest : Text) :
    unicodeEscape? ('0' :: '0' :: hexPair c.toNat ++ rest) = some (some c, rest) := by
  have hunits : ∀ n < 0x20, unit? ('0' :: '0' :: hexPair n) = some (n, []) := by decide
  rw [unicodeEscape?, unit?_append (hunits _ hc)]
  change (if _ then _ else _) = _
  rw [if_neg (by omega), if_neg (by omega), Char.ofNat_toNat]
  rfl

theorem string?_simpleEscape {c mark : Char} (hmark : mark ≠ 'u')
    (h : simpleEscape? mark = some c) (fuel : Nat)
    (t : Text) : string? (fuel + 1) ('\\' :: mark :: t) =
      (string? fuel t).map fun (content, rest) => (content.map (c :: ·), rest) := by
  rw [string?.eq_6 _ _ _ hmark, h]
  cases string? fuel t with
  | none => rfl
  | some read => rfl

/-- A character is read back from its escape. -/
theorem string?_escape (c : Char) (fuel : Nat) (t : Text) :
    string? (fuel + 1) (escape c ++ t) =
      (string? fuel t).map fun (content, rest) => (content.map (c :: ·), rest) := by
  rw [escape]
  split
  · next h => exact h ▸ string?_simpleEscape (by decide) (by decide) fuel t
  · next hquote =>
      split
      · next h => exact h ▸ string?_simpleEscape (by decide) (by decide) fuel t
      · next hslash =>
          split
          · next h => exact h ▸ string?_simpleEscape (by decide) (by decide) fuel t
          · split
            · next h => exact h ▸ string?_simpleEscape (by decide) (by decide) fuel t
            · split
              · next h => exact h ▸ string?_simpleEscape (by decide) (by decide) fuel t
              · split
                · next h => exact h ▸ string?_simpleEscape (by decide) (by decide) fuel t
                · split
                  · next h => exact h ▸ string?_simpleEscape (by decide) (by decide) fuel t
                  · split
                    · next hcontrol =>
                        change string? (fuel + 1)
                          ('\\' :: 'u' :: ('0' :: '0' :: hexPair c.toNat ++ t)) = _
                        rw [string?.eq_4, unicodeEscape?_hexPair hcontrol]
                        change (string? fuel t).bind _ = _
                        cases string? fuel t with
                        | none => rfl
                        | some read => rfl
                    · next hplain =>
                        rw [List.singleton_append,
                          string?.eq_7 _ _ _ hquote (fun _ h => absurd h hslash)
                          (fun h => absurd h hslash) (fun _ _ h => absurd h hslash), if_neg hplain]

theorem one_le_length_escape (c : Char) : 1 ≤ (escape c).length := by
  rw [escape]
  repeat' split
  all_goals simp

/-- A text is read back from its characters' escapes, up to the quote behind them. -/
theorem string?_escapes {t : Text} {fuel : Nat} (hfuel : t.length < fuel) (rest : Text) :
    string? fuel (t.flatMap escape ++ '"' :: rest) = some (some t, rest) := by
  induction t generalizing fuel with
  | nil =>
      obtain ⟨fuel, rfl⟩ := Nat.exists_eq_add_one_of_ne_zero (Nat.ne_of_gt hfuel)
      rfl
  | cons c t ih =>
      obtain ⟨fuel, rfl⟩ :=
        Nat.exists_eq_add_one_of_ne_zero (Nat.ne_of_gt (Nat.zero_lt_of_lt hfuel))
      rw [List.flatMap_cons, List.append_assoc, string?_escape, ih (Nat.lt_of_succ_lt_succ hfuel)]
      rfl

theorem length_le_escapes (t : Text) : t.length ≤ (t.flatMap escape).length := by
  induction t with
  | nil => exact Nat.le_refl _
  | cons c t ih =>
      have hc := one_le_length_escape c
      rw [List.flatMap_cons, List.length_append, List.length_cons]
      omega

theorem string?_quoted (t rest : Text) :
    string? ((t.flatMap escape ++ '"' :: rest).length + 1) (t.flatMap escape ++ '"' :: rest) = some
      (some t, rest) := by
  refine string?_escapes ?_ rest
  have hlength := length_le_escapes t
  rw [List.length_append]
  omega

/-! ### Values -/

/-- The values whose text has all that they are made of: proper numbers, and strings that are
texts. -/
inductive Readable : Json → Prop where
  | null : Readable .null
  | bool (b : Bool) : Readable (.bool b)
  | number {l : Literal} (proper : l.Proper) : Readable (.number l)
  | text (t : Text) : Readable (.text t)
  | array {items : List Json} (each : ∀ item ∈ items, Readable item) : Readable (.array items)
  | object {members : List (Option Text × Json)} (keys : ∀ m ∈ members, ∃ key, m.1 = some key)
      (each : ∀ m ∈ members, Readable m.2) : Readable (.object members)

theorem skipBlanks_newLine (level : Nat) (t : Text) :
    skipBlanks (newLine level ++ t) = skipBlanks t := by
  have hblank : ∀ c ∈ newLine level, isBlank c = true := by
    intro c hc
    cases List.mem_cons.mp hc with
    | inl h => exact h ▸ rfl
    | inr h => exact List.eq_of_mem_replicate h ▸ rfl
  exact List.dropWhile_append_of_pos hblank

theorem value?_blank (fuel : Nat) (t : Text) : value? fuel (' ' :: t) = value? fuel t := by
  cases fuel with
  | zero => rfl
  | succ fuel => rfl

theorem value?_blanks (fuel level : Nat) (t : Text) :
    value? fuel (newLine level ++ t) = value? fuel t := by
  cases fuel with
  | zero => rfl
  | succ fuel => rw [value?, value?, skipBlanks_newLine]

theorem skipBlanks_of_not_blank {c : Char} (h : isBlank c = false) (t : Text) :
    skipBlanks (c :: t) = c :: t := by
  rw [skipBlanks, List.dropWhile_cons, h]
  rfl

theorem not_blank_of_isDigit {c : Char} (h : c.isDigit = true) : isBlank c = false := by
  cases hblank : isBlank c with
  | false => rfl
  | true =>
      simp only [isBlank, Bool.or_eq_true, beq_iff_eq] at hblank
      obtain ((rfl | rfl) | rfl) | rfl := hblank
      · exact absurd h (by decide)
      · exact absurd h (by decide)
      · exact absurd h (by decide)
      · exact absurd h (by decide)

/-- A value starts with no blank and no closing bracket. -/
theorem render_eq_cons {j : Json} (h : Readable j) (level : Nat) :
    ∃ c t, render level j = c :: t ∧ isBlank c = false ∧ c ≠ ']' := by
  cases h with
  | null => exact ⟨'n', _, rfl, rfl, by decide⟩
  | bool b =>
      cases b with
      | true => exact ⟨'t', _, rfl, rfl, by decide⟩
      | false => exact ⟨'f', _, rfl, rfl, by decide⟩
  | @number l proper =>
      rw [render, Literal.render_eq]
      cases l.negative with
      | true => exact ⟨'-', _, rfl, rfl, by decide⟩
      | false =>
          obtain ⟨c, t, hbody, hc⟩ := body_eq_cons proper
          refine ⟨c, t, hbody, not_blank_of_isDigit hc, ?_⟩
          intro heq
          rw [heq] at hc
          exact absurd hc (by decide)
  | text t => exact ⟨'"', _, rfl, rfl, by decide⟩
  | @array items each =>
      cases items with
      | nil => exact ⟨'[', _, rfl, rfl, by decide⟩
      | cons item items => exact ⟨'[', _, rfl, rfl, by decide⟩
  | @object members keys each =>
      cases members with
      | nil => exact ⟨'{', _, rfl, rfl, by decide⟩
      | cons m members => exact ⟨'{', _, rfl, rfl, by decide⟩

/-- A value that is read back from its text wherever that stands. -/
def Reread (j : Json) : Prop :=
  ∀ level fuel rest, 2 * (render level j).length ≤ fuel → Stop rest →
    value? fuel (render level j ++ rest) = some (j, rest)

theorem stop_newLine (level : Nat) (t : Text) : Stop (newLine level ++ t) := stop_cons (by decide) _

/-- What stands behind an item or a member. -/
theorem stop_renderItems (level below : Nat) (items : List Json) (t : Text) :
    Stop (renderItems level items ++ (newLine below ++ t)) := by
  cases items with
  | nil => exact stop_newLine below t
  | cons item items => exact stop_cons (by decide) _

section

variable {fuel level : Nat} {item : Json} {text rest after : Text}

theorem items?_last (h : value? fuel text = some (item, rest))
    (hclose : skipBlanks rest = ']' :: after) :
    items? (fuel + 1) (newLine level ++ text) = some ([item], after) := by
  rw [items?, value?_blanks, h, Option.bind_eq_bind, Option.bind_some]
  dsimp only
  rw [hclose]
  rfl

theorem items?_more {items : List Json} {last : Text} (h : value? fuel text = some (item, rest))
    (hcomma : skipBlanks rest = ',' :: after) (hmore : items? fuel after = some (items, last)) :
    items? (fuel + 1) (newLine level ++ text) = some (item :: items, last) := by
  rw [items?, value?_blanks, h, Option.bind_eq_bind, Option.bind_some]
  dsimp only
  rw [hcomma]
  change (items? fuel after).map _ = _
  rw [hmore]
  rfl

end

theorem items?_render {item : Json} {items : List Json} (each : ∀ x ∈ item :: items, Reread x)
    {level below fuel : Nat}
    (hfuel : 2 * ((render level item).length + (renderItems level items).length) < fuel)
    (rest : Text) :
    items? fuel
      (newLine level ++
        (render level item ++ (renderItems level items ++ (newLine below ++ ']' :: rest)))) =
      some (item :: items, rest) := by
  induction items generalizing item fuel with
  | nil =>
      obtain ⟨fuel, rfl⟩ :=
        Nat.exists_eq_add_one_of_ne_zero (Nat.ne_of_gt (Nat.zero_lt_of_lt hfuel))
      exact items?_last
        (each item List.mem_cons_self level fuel _ (by omega) (stop_newLine below _))
        (skipBlanks_newLine below (']' :: rest))
  | cons next items ih =>
      obtain ⟨fuel, rfl⟩ :=
        Nat.exists_eq_add_one_of_ne_zero (Nat.ne_of_gt (Nat.zero_lt_of_lt hfuel))
      have hlength : (renderItems level (next :: items)).length =
          1 + (newLine level).length + (render level next).length +
            (renderItems level items).length := by
        simp [renderItems]
        omega
      have htail : renderItems level (next :: items) ++ (newLine below ++ ']' :: rest) =
          ',' :: (newLine level ++
            (render level next ++
              (renderItems level items ++ (newLine below ++ ']' :: rest)))) := by
        simp [renderItems]
      refine items?_more (each item List.mem_cons_self level fuel _ (by omega)
        (stop_renderItems level below (next :: items) _)) ?_
          (ih (fun x hx => each x (List.mem_cons_of_mem _ hx)) (by omega))
      rw [htail]
      rfl

/-- The characters of a key, from behind its first quote to the value. -/
theorem quote_append (key t : Text) :
    quote (some key) ++ t = '"' :: (key.flatMap escape ++ '"' :: t) := by
  simp [quote]

section

variable {fuel level : Nat} {key : Text} {value : Json} {text rest after : Text}

theorem members?_last (h : value? fuel text = some (value, rest))
    (hclose : skipBlanks rest = '}' :: after) :
    members? (fuel + 1) (newLine level ++ (quote (some key) ++ ':' :: ' ' :: text)) =
      some ([(some key, value)], after) := by
  rw [members?, skipBlanks_newLine, quote_append]
  change (string? ((key.flatMap escape ++ '"' :: ':' :: ' ' :: text).length + 1) _).bind _ = _
  rw [string?_quoted, Option.bind_some]
  change (value? fuel (' ' :: text)).bind _ = _
  rw [value?_blank, h, Option.bind_some]
  dsimp only
  rw [hclose]
  rfl

theorem members?_more {members : List (Option Text × Json)} {last : Text}
    (h : value? fuel text = some (value, rest))
    (hcomma : skipBlanks rest = ',' :: after) (hmore : members? fuel after = some (members, last)) :
    members? (fuel + 1) (newLine level ++ (quote (some key) ++ ':' :: ' ' :: text)) =
      some ((some key, value) :: members, last) := by
  rw [members?, skipBlanks_newLine, quote_append]
  change (string? ((key.flatMap escape ++ '"' :: ':' :: ' ' :: text).length + 1) _).bind _ = _
  rw [string?_quoted, Option.bind_some]
  change (value? fuel (' ' :: text)).bind _ = _
  rw [value?_blank, h, Option.bind_some]
  dsimp only
  rw [hcomma]
  change (members? fuel after).map _ = _
  rw [hmore]
  rfl

end

theorem stop_renderMembers (level below : Nat) (members : List (Option Text × Json)) (t : Text) :
    Stop (renderMembers level members ++ (newLine below ++ t)) := by
  cases members with
  | nil => exact stop_newLine below t
  | cons m members => exact stop_cons (by decide) _

theorem members?_render {key : Text} {value : Json} {members : List (Option Text × Json)}
    (hvalue : Reread value)
    (keys : ∀ m ∈ members, ∃ key, m.1 = some key) (each : ∀ m ∈ members, Reread m.2)
    {level below fuel : Nat}
    (hfuel : 2 * ((render level value).length + (renderMembers level members).length) < fuel)
    (rest : Text) :
    members? fuel (newLine level ++ (quote (some key) ++ ':' :: ' ' :: (render level value ++
      (renderMembers level members ++ (newLine below ++ '}' :: rest))))) = some
        ((some key, value) :: members, rest) := by
  induction members generalizing key value fuel with
  | nil =>
      obtain ⟨fuel, rfl⟩ :=
        Nat.exists_eq_add_one_of_ne_zero (Nat.ne_of_gt (Nat.zero_lt_of_lt hfuel))
      exact members?_last (hvalue level fuel _ (by omega) (stop_newLine below _))
        (skipBlanks_newLine below ('}' :: rest))
  | cons m members ih =>
      obtain ⟨fuel, rfl⟩ :=
        Nat.exists_eq_add_one_of_ne_zero (Nat.ne_of_gt (Nat.zero_lt_of_lt hfuel))
      rw [List.forall_mem_cons] at keys each
      obtain ⟨⟨next, hnext⟩, hkeys⟩ := keys
      obtain ⟨k, v⟩ := m
      obtain rfl : k = some next := hnext
      have hv : Reread v := each.1
      have hlength : (renderMembers level ((some next, v) :: members)).length =
          3 + (newLine level).length + (quote (some next)).length + (render level v).length +
            (renderMembers level members).length := by
        simp [renderMembers]
        omega
      have htail : renderMembers level ((some next, v) :: members) ++
          (newLine below ++ '}' :: rest) =
          ',' :: (newLine level ++ (quote (some next) ++ ':' :: ' ' :: (render level v ++
            (renderMembers level members ++ (newLine below ++ '}' :: rest))))) := by
        simp [renderMembers]
      refine members?_more
        (hvalue level fuel _ (by omega)
          (stop_renderMembers level below ((some next, v) :: members) _))
        ?_ (ih hv hkeys each.2 (by omega))
      rw [htail]
      rfl

theorem one_le_length_render {j : Json} (h : Readable j) (level : Nat) :
    1 ≤ (render level j).length := by
  obtain ⟨c, t, hrender, -⟩ := render_eq_cons h level
  rw [hrender]
  simp

theorem value?_number {l : Literal} (h : l.Proper) (fuel : Nat) {rest : Text} (hrest : Stop rest) :
    value? (fuel + 1) (l.render ++ rest) = some (.number l, rest) := by
  have hread := literal?_body h hrest
  rw [Literal.render_eq]
  cases hsign : l.negative with
  | true =>
      rw [hsign] at hread
      change (literal? true (l.body ++ rest)).map _ = _
      rw [hread]
      rfl
  | false =>
      rw [hsign] at hread
      obtain ⟨c, t, hbody, hc⟩ := body_eq_cons h
      rw [hbody] at hread ⊢
      have hother : ∀ d, d.isDigit = false → c ≠ d := by
        intro d hd heq
        rw [← heq, hc] at hd
        cases hd
      have hblanks : skipBlanks (([] ++ (c :: t)) ++ rest) = c :: (t ++ rest) :=
        skipBlanks_of_not_blank (not_blank_of_isDigit hc) _
      rw [if_neg Bool.false_ne_true, value?, hblanks]
      dsimp only
      rw [if_neg (hother _ rfl), if_neg (hother _ rfl), if_neg (hother _ rfl),
        if_neg (hother _ rfl),
        if_neg (hother _ rfl), if_neg (hother _ rfl), if_neg (hother _ rfl)]
      change (literal? false (c :: t ++ rest)).map _ = _
      rw [hread]
      rfl

theorem value?_text (t : Text) (fuel : Nat) (rest : Text) :
    value? (fuel + 1) (quote (some t) ++ rest) = some (.text t, rest) := by
  rw [quote_append]
  change (string? ((t.flatMap escape ++ '"' :: rest).length + 1) _).map _ = _
  rw [string?_quoted]
  rfl

/-- An array that does not end at once has items. -/
theorem value?_bracket {t : Text} (h : (skipBlanks t).head? ≠ some ']') (fuel : Nat) :
    value? (fuel + 1) ('[' :: t) = (items? fuel t).map fun p => (.array p.1, p.2) := by
  rw [value?, skipBlanks_of_not_blank rfl]
  dsimp only
  rw [if_neg (by decide), if_neg (by decide), if_neg (by decide), if_neg (by decide),
    if_neg (by decide), if_pos rfl]
  split
  · next heq => exact absurd (congrArg List.head? heq) h
  · rfl

/-- An object that does not end at once has members. -/
theorem value?_brace {t : Text} (h : (skipBlanks t).head? ≠ some '}') (fuel : Nat) :
    value? (fuel + 1) ('{' :: t) = (members? fuel t).map fun p => (.object p.1, p.2) := by
  rw [value?, skipBlanks_of_not_blank rfl]
  dsimp only
  rw [if_neg (by decide), if_neg (by decide), if_neg (by decide), if_neg (by decide),
    if_neg (by decide),
    if_neg (by decide), if_pos rfl]
  split
  · next heq => exact absurd (congrArg List.head? heq) h
  · rfl

theorem value?_array {item : Json} {items : List Json} (each : ∀ x ∈ item :: items, Readable x)
    (ih : ∀ x ∈ item :: items, Reread x) : Reread (.array (item :: items)) := by
  intro level fuel rest hfuel _
  have hrender : render level (.array (item :: items)) ++ rest = '[' :: (newLine (level + 1) ++
      (render (level + 1) item ++
        (renderItems (level + 1) items ++ (newLine level ++ ']' :: rest)))) := by
    simp [render]
  have hlength : (render level (.array (item :: items))).length = 2 + (newLine (level + 1)).length +
      (render (level + 1) item).length + (renderItems (level + 1) items).length +
        (newLine level).length := by
    simp [render]
    omega
  obtain ⟨fuel, rfl⟩ : ∃ n, fuel = n + 1 := ⟨fuel - 1, by omega⟩
  have hread : items? fuel (newLine (level + 1) ++ (render (level + 1) item ++
      (renderItems (level + 1) items ++ (newLine level ++ ']' :: rest)))) = some
        (item :: items, rest) :=
    items?_render ih (by omega) rest
  obtain ⟨c, t, hitem, hblank, hclose⟩ := render_eq_cons (each item List.mem_cons_self) (level + 1)
  have hitems : (skipBlanks (newLine (level + 1) ++ (render (level + 1) item ++
      (renderItems (level + 1) items ++ (newLine level ++ ']' :: rest))))).head? ≠ some ']' := by
    rw [skipBlanks_newLine, hitem, List.cons_append, skipBlanks_of_not_blank hblank]
    exact fun h => hclose (Option.some.inj h)
  rw [hrender, value?_bracket hitems, hread]
  rfl

theorem value?_object {key : Text} {value : Json} {members : List (Option Text × Json)}
    (hvalue : Reread value)
    (keys : ∀ m ∈ members, ∃ key, m.1 = some key) (each : ∀ m ∈ members, Reread m.2) :
    Reread (.object ((some key, value) :: members)) := by
  intro level fuel rest hfuel _
  have hrender : render level (.object ((some key, value) :: members)) ++ rest = '{' ::
      (newLine (level + 1) ++
      (quote (some key) ++ ':' :: ' ' :: (render (level + 1) value ++
        (renderMembers (level + 1) members ++ (newLine level ++ '}' :: rest))))) := by
    simp [render]
  have hlength : (render level (.object ((some key, value) :: members))).length = 4 +
      (newLine (level + 1)).length +
      (quote (some key)).length + (render (level + 1) value).length +
        (renderMembers (level + 1) members).length +
      (newLine level).length := by
    simp [render]
    omega
  obtain ⟨fuel, rfl⟩ : ∃ n, fuel = n + 1 := ⟨fuel - 1, by omega⟩
  have hread : members? fuel
      (newLine (level + 1) ++ (quote (some key) ++ ':' :: ' ' :: (render (level + 1) value ++
      (renderMembers (level + 1) members ++ (newLine level ++ '}' :: rest))))) =
        some ((some key, value) :: members, rest) :=
          members?_render hvalue keys each (by omega) rest
  have hmembers : (skipBlanks (newLine (level + 1) ++ (quote (some key) ++ ':' :: ' ' ::
      (render (level + 1) value ++
        (renderMembers (level + 1) members ++ (newLine level ++ '}' :: rest)))))).head? ≠
        some '}' := by
    rw [skipBlanks_newLine, quote_append, skipBlanks_of_not_blank rfl]
    exact fun h => absurd (Option.some.inj h) (by decide)
  rw [hrender, value?_brace hmembers, hread]
  rfl

theorem reread_of_readable {j : Json} (h : Readable j) : Reread j := by
  induction h with
  | null =>
      intro level fuel rest hfuel _
      obtain ⟨fuel, rfl⟩ : ∃ n, fuel = n + 1 := ⟨fuel - 1, by simp [render] at hfuel; omega⟩
      rfl
  | bool b =>
      intro level fuel rest hfuel _
      have hlength := one_le_length_render (.bool b) level
      obtain ⟨fuel, rfl⟩ : ∃ n, fuel = n + 1 := ⟨fuel - 1, by omega⟩
      cases b with
      | true => rfl
      | false => rfl
  | @number l proper =>
      intro level fuel rest hfuel hrest
      have hlength := one_le_length_render (.number proper) level
      obtain ⟨fuel, rfl⟩ : ∃ n, fuel = n + 1 := ⟨fuel - 1, by omega⟩
      exact value?_number proper fuel hrest
  | text t =>
      intro level fuel rest hfuel _
      have hlength := one_le_length_render (.text t) level
      obtain ⟨fuel, rfl⟩ : ∃ n, fuel = n + 1 := ⟨fuel - 1, by omega⟩
      exact value?_text t fuel rest
  | @array items each ih =>
      cases items with
      | nil =>
          intro level fuel rest hfuel _
          have hlength := one_le_length_render (.array each) level
          obtain ⟨fuel, rfl⟩ : ∃ n, fuel = n + 1 := ⟨fuel - 1, by omega⟩
          rfl
      | cons item items => exact value?_array each ih
  | @object members keys each ih =>
      cases members with
      | nil =>
          intro level fuel rest hfuel _
          have hlength := one_le_length_render (.object keys each) level
          obtain ⟨fuel, rfl⟩ : ∃ n, fuel = n + 1 := ⟨fuel - 1, by omega⟩
          rfl
      | cons m members =>
          obtain ⟨k, v⟩ := m
          rw [List.forall_mem_cons] at keys ih
          obtain ⟨⟨key, hkey⟩, hkeys⟩ := keys
          obtain rfl : k = some key := hkey
          exact value?_object ih.1 hkeys ih.2

/-- A value is read back from its text. -/
theorem parse?_render {j : Json} (h : Readable j) (level : Nat) :
    parse? (j.render level) = some j := by
  have hread := reread_of_readable h level (2 * (render level j).length + 2) [] (by omega) stop_nil
  rw [List.append_nil] at hread
  rw [parse?, hread]
  rfl

end ChartPackage.Json
