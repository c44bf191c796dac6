import Axon.Foundation.Strtol
import Axon.Rt.Sysfs
import Mathlib.Data.List.Forall2

/-! # The list of a core's CPUs

`rt_core_siblings` reads a list of CPUs such as `6,14` or `0-1` from sysfs, of which `read_line` takes the first 63
bytes. It is meant to report nothing rather than guess, and `core_siblings_iff` says for which lines of the file it
reports what the line says, or nothing. -/

namespace Axon.Rt

open Foundation

/-! ## The parser -/

/-- The items that `getline` finds in a line: there is none behind a comma at the end. -/
def itemsOf (line : List Char) : List (List Char) :=
  let parts := line.splitOn ','
  if parts.getLast? = some [] then parts.dropLast else parts

/-- Up to where a C string goes. -/
def cString (item : List Char) : List Char := item.takeWhile (· ≠ '\x00')

/-- The checks on what has been read of an item. -/
def checkItem (lo hi : ℤ) (rest : List Char) : Option (ℤ × ℤ) :=
  if rest ≠ [] ∨ lo < 0 ∨ hi < lo ∨ hi - lo > 4096 then none else some (lo, hi)

/-- One item: the first CPU and the last one, `none` if it is malformed. -/
def parseItem (item : List Char) : Option (ℤ × ℤ) :=
  (strtol (cString item)).bind fun
    | (lo, '-' :: h) => (strtol h).bind fun r => checkItem lo r.1 r.2
    | (lo, rest) => checkItem lo lo rest

/-- `++c` on a `long`. Past the largest one the loop does not end. -/
def increment (c : ℤ) : ℤ := if c = longMax then longMin else c + 1

/-- `static_cast<int>`. -/
def toInt (c : ℤ) : ℤ := c.bmod (2 ^ 32)

/-- The loop over the CPUs of an item, `none` if it has not ended after `fuel` rounds. -/
def expand : ℕ → ℤ → ℤ → Option (List ℤ)
  | 0, _, _ => none
  | fuel + 1, c, hi => if c ≤ hi then (expand fuel (increment c) hi).map (toInt c :: ·) else some []

/-- The loop over the items. -/
def parseItems (fuel : ℕ) : List (List Char) → List ℤ → Option (List ℤ)
  | [], out => some out
  | item :: items, out =>
      match parseItem item with
      | none => some []
      | some (lo, hi) => (expand fuel lo hi).bind fun cpus => parseItems fuel items (out ++ cpus)

/-- **`rt_core_siblings`**, on what opening and reading `thread_siblings_list` gives. -/
def rtCoreSiblings (fuel : ℕ) (cpu : Int32) (file : Except ErrNo (List Char)) : Option (List ℤ) :=
  if cpu < 0 then some []
  else
    match readLine file with
    | .error _ => some []
    | .ok list => parseItems fuel (itemsOf list) []

/-- It terminates with a result. -/
def Returns (cpu : Int32) (file : Except ErrNo (List Char)) (out : List ℤ) : Prop :=
  ∃ fuel, rtCoreSiblings fuel cpu file = some out

/-! ## The grammar -/

/-- `INT_MAX`. -/
abbrev intMax : ℕ := 2147483647

/-- **An item of the grammar**: `N` or `N-M`. -/
inductive Item : List Char → ℕ → ℕ → Prop
  | one {text : List Char} {n : ℕ} (h : Decimal text n) (hint : n ≤ intMax) : Item text n n
  | range {t₁ t₂ : List Char} {n m : ℕ} (h₁ : Decimal t₁ n) (h₂ : Decimal t₂ m) (hle : n ≤ m) (hint : m ≤ intMax)
      (hspan : m - n ≤ 4096) : Item (t₁ ++ '-' :: t₂) n m

/-- **A line of the grammar**: items separated by commas, and the CPUs they denote, in order. -/
def Line (line : List Char) (cpus : List ℤ) : Prop :=
  ∃ items : List (List Char × ℕ × ℕ), items ≠ [] ∧ (∀ i ∈ items, Item i.1 i.2.1 i.2.2) ∧
    line = [','].intercalate (items.map (·.1)) ∧
    cpus = items.flatMap fun i => (List.range' i.2.1 (i.2.2 - i.2.1 + 1)).map fun n : ℕ => (n : ℤ)

/-- **The parser keeps to the grammar** on a line: it terminates, with the CPUs that the line denotes, or with nothing
if it denotes none. -/
structure KeepsToGrammar (cpu : Int32) (file : Except ErrNo (List Char)) (line : List Char) : Prop where
  denoted : ∀ cpus, Line line cpus → Returns cpu file cpus
  malformed : (∀ cpus, ¬ Line line cpus) → Returns cpu file []

/-! ## What the parser takes -/

/-- **An item that the parser takes**: a number or two, with white space and a sign before each; what lies behind a
zero byte is not read. -/
def Accepted (item : List Char) (lo hi : ℤ) : Prop :=
  ∃ text behind, item = text ++ behind ∧ '\x00' ∉ text ∧ (∀ c ∈ behind.head?, c = '\x00') ∧
    (NumberText text lo ∧ hi = lo ∨ ∃ t₁ t₂, text = t₁ ++ '-' :: t₂ ∧ NumberText t₁ lo ∧ NumberText t₂ hi) ∧
    0 ≤ lo ∧ lo ≤ hi ∧ hi - lo ≤ 4096

/-- What a C string is of a text. -/
theorem cString_append {text behind : List Char} (htext : '\x00' ∉ text) (hbehind : ∀ c ∈ behind.head?, c = '\x00') :
    cString (text ++ behind) = text := by
  have hall : ∀ c ∈ text, decide (c ≠ '\x00') = true := fun c hc =>
    decide_eq_true fun heq => htext (heq ▸ hc)
  rw [cString, List.takeWhile_append_of_pos hall]
  cases behind with
  | nil => exact List.append_nil text
  | cons c behind =>
      rw [hbehind c rfl, List.takeWhile_cons_of_neg (by decide), List.append_nil]

/-- An item is accepted at its end alone, when its bounds are in order and not too far apart. -/
theorem checkItem_eq_some_iff {lo hi a b : ℤ} {rest : List Char} : checkItem lo hi rest = some (a, b) ↔
    rest = [] ∧ 0 ≤ lo ∧ lo ≤ hi ∧ hi - lo ≤ 4096 ∧ lo = a ∧ hi = b := by
  unfold checkItem
  split_ifs with hbad
  · refine iff_of_false nofun ?_
    rintro ⟨hrest, hlo, hle, hspan, -⟩
    rcases hbad with hbad | hbad | hbad | hbad
    · exact hbad hrest
    · omega
    · omega
    · omega
  · push Not at hbad
    obtain ⟨hrest, hlo, hle, hspan⟩ := hbad
    rw [Option.some_inj, Prod.mk.injEq]
    exact ⟨fun h => ⟨hrest, hlo, hle, hspan, h.1, h.2⟩, fun h => ⟨h.2.2.2.2.1, h.2.2.2.2.2⟩⟩

/-- A number and nothing behind it. -/
theorem strtol_of_numberText {text : List Char} {v : ℤ} (h : NumberText text v) : strtol text = some (v, []) :=
  strtol_eq_some_iff.mpr ⟨text, h, (List.append_nil text).symm, nofun⟩

/-- A number and a dash behind it. -/
theorem strtol_of_dash {t₁ t₂ : List Char} {v : ℤ} (h : NumberText t₁ v) :
    strtol (t₁ ++ '-' :: t₂) = some (v, '-' :: t₂) := by
  refine strtol_eq_some_iff.mpr ⟨t₁, h, rfl, fun c hc => ?_⟩
  obtain rfl := Option.some.inj hc
  rfl

/-- **The parser takes an item** when it is accepted, with the bounds it states. -/
theorem parseItem_eq_some_iff {item : List Char} {lo hi : ℤ} :
    parseItem item = some (lo, hi) ↔ Accepted item lo hi := by
  constructor
  · intro h
    obtain ⟨⟨v, rest⟩, hfirst, h⟩ := Option.bind_eq_some_iff.mp h
    -- what `strtol` sees is the item up to its first NUL
    have hitem : item = cString item ++ item.dropWhile (· ≠ '\x00') := List.takeWhile_append_dropWhile.symm
    have hno : '\x00' ∉ cString item := fun hmem => absurd (List.mem_takeWhile_imp hmem) (by decide)
    have hbehind : ∀ c ∈ (item.dropWhile (· ≠ '\x00')).head?, c = '\x00' := by
      intro c hc
      have hstop := List.head?_dropWhile_not (· ≠ '\x00') item
      rw [Option.mem_def.mp hc] at hstop
      simpa using hstop
    obtain ⟨t₁, h₁, htext, -⟩ := strtol_eq_some_iff.mp hfirst
    split at h
    · -- a dash, and a second number behind it
      rename_i lo' t₂ heq
      cases heq
      obtain ⟨⟨v', rest'⟩, hsecond, h⟩ := Option.bind_eq_some_iff.mp h
      obtain ⟨rfl, hlo, hle, hspan, rfl, rfl⟩ := checkItem_eq_some_iff.mp h
      obtain ⟨t₂', h₂, rfl, -⟩ := strtol_eq_some_iff.mp hsecond
      rw [List.append_nil] at htext
      exact ⟨_, _, hitem, hno, hbehind, .inr ⟨t₁, t₂', htext, h₁, h₂⟩, hlo, hle, hspan⟩
    · rename_i lo' rest' _ heq
      cases heq
      obtain ⟨rfl, hlo, hle, hspan, rfl, rfl⟩ := checkItem_eq_some_iff.mp h
      rw [List.append_nil] at htext
      exact ⟨_, _, hitem, hno, hbehind, .inl ⟨htext ▸ h₁, rfl⟩, hlo, hle, hspan⟩
  · rintro ⟨text, behind, rfl, hno, hbehind, hnumbers, hlo, hle, hspan⟩
    unfold parseItem
    rw [cString_append hno hbehind]
    rcases hnumbers with ⟨h₁, rfl⟩ | ⟨t₁, t₂, rfl, h₁, h₂⟩
    · rw [strtol_of_numberText h₁]
      exact checkItem_eq_some_iff.mpr ⟨rfl, hlo, hle, hspan, rfl, rfl⟩
    · rw [strtol_of_dash h₁, Option.bind_some]
      show (strtol t₂).bind _ = _
      rw [strtol_of_numberText h₂, Option.bind_some]
      exact checkItem_eq_some_iff.mpr ⟨rfl, hlo, hle, hspan, rfl, rfl⟩

/-- An `int` fits in a `long`. -/
theorem natCast_le_longMax {n : ℕ} (h : n ≤ intMax) : (n : ℤ) ≤ longMax :=
  (Int.ofNat_le.mpr h).trans (by decide)

/-- An item of the grammar is accepted. -/
theorem Item.accepted {text : List Char} {n m : ℕ} (h : Item text n m) : Accepted text n m := by
  have hno : ∀ {t : List Char} {k : ℕ}, Decimal t k → '\x00' ∉ t := fun ht hmem =>
    absurd (ht.digits _ hmem) (by decide)
  cases h with
  | one h hint =>
      have hnumber := h.numberText (natCast_le_longMax hint)
      exact ⟨text, [], (List.append_nil text).symm, hno h, nofun, .inl ⟨hnumber, rfl⟩, by omega, le_rfl, by omega⟩
  | @range t₁ t₂ n m h₁ h₂ hle hint hspan =>
      have hn := h₁.numberText (natCast_le_longMax (hle.trans hint))
      have hm := h₂.numberText (natCast_le_longMax hint)
      refine ⟨_, [], (List.append_nil _).symm, ?_, nofun, .inr ⟨t₁, t₂, rfl, hn, hm⟩, by omega, by omega, by omega⟩
      intro hmem
      rcases List.mem_append.mp hmem with hmem | hmem
      · exact hno h₁ hmem
      · exact hno h₂ ((List.mem_cons.mp hmem).resolve_left (by decide))

/-! ## The loops -/

/-- The CPUs of an item, as `int`s. -/
def cpusOf (lo hi : ℤ) : List ℤ := (List.range (hi - lo + 1).toNat).map fun k : ℕ => toInt (lo + k)

/-- **The loop over the CPUs ends** when it does not have to pass the largest `long`. -/
theorem expand_eq {c hi : ℤ} (hhi : hi < longMax) {fuel : ℕ} (hfuel : (hi - c + 1).toNat < fuel) :
    expand fuel c hi = some (cpusOf c hi) := by
  -- on the fuel; one CPU is added for each unit
  induction fuel generalizing c with
  | zero => exact absurd hfuel (Nat.not_lt_zero _)
  | succ fuel ih =>
      unfold expand
      by_cases hc : c ≤ hi
      -- below `LONG_MAX` the increment does not wrap
      · have hstep : increment c = c + 1 := if_neg (hc.trans_lt hhi).ne
        have hone : (hi - c + 1).toNat = (hi - (c + 1) + 1).toNat + 1 := by omega
        rw [if_pos hc, hstep, ih (by omega), Option.map_some]
        refine congrArg some ?_
        rw [cpusOf, cpusOf, hone, List.range_succ_eq_map, List.map_cons, List.map_map]
        refine congrArg₂ List.cons (congrArg toInt (by omega)) (List.map_congr_left fun k _ => congrArg toInt ?_)
        show c + 1 + (k : ℤ) = c + ((k + 1 : ℕ) : ℤ)
        omega
      · have hzero : (hi - c + 1).toNat = 0 := by omega
        rw [if_neg hc, cpusOf, hzero]
        rfl

/-- **The loop never ends** when the last CPU is the largest `long`. -/
theorem expand_longMax (fuel : ℕ) {c : ℤ} (hc : c ≤ longMax) : expand fuel c longMax = none := by
  induction fuel generalizing c with
  | zero => rfl
  | succ fuel ih =>
      have hstep : increment c ≤ longMax := by
        unfold increment
        split_ifs with hmax
        · decide
        · omega
      rw [expand, if_pos hc, ih hstep]
      rfl

/-- A loop that has ended would not have used more fuel. -/
theorem expand_add {fuel : ℕ} {c hi : ℤ} {cpus : List ℤ} (h : expand fuel c hi = some cpus) (more : ℕ) :
    expand (fuel + more) c hi = some cpus := by
  induction fuel generalizing c cpus with
  | zero => cases h
  | succ fuel ih =>
      rw [Nat.succ_add, expand]
      rw [expand] at h
      by_cases hc : c ≤ hi
      · rw [if_pos hc] at h ⊢
        obtain ⟨rest, hrest, rfl⟩ := Option.map_eq_some_iff.mp h
        rw [ih hrest, Option.map_some]
      · rwa [if_neg hc] at h ⊢

/-- The same of the loop over the items. -/
theorem parseItems_add {fuel : ℕ} {items : List (List Char)} {out res : List ℤ}
    (h : parseItems fuel items out = some res) (more : ℕ) : parseItems (fuel + more) items out = some res := by
  induction items generalizing out with
  | nil => exact h
  | cons item items ih =>
      rw [parseItems] at h ⊢
      split at h
      · exact h
      · obtain ⟨cpus, hcpus, h⟩ := Option.bind_eq_some_iff.mp h
        rw [expand_add hcpus, Option.bind_some]
        exact ih h

/-- A loop that has ended went over what the item denotes. -/
theorem expand_eq_some {fuel : ℕ} {c hi : ℤ} {cpus : List ℤ} (h : expand fuel c hi = some cpus) (hc : c ≤ hi) :
    cpus ≠ [] := by
  cases fuel with
  | zero => cases h
  | succ fuel =>
      rw [expand, if_pos hc] at h
      obtain ⟨rest, -, rfl⟩ := Option.map_eq_some_iff.mp h
      exact List.cons_ne_nil _ _

/-- The bound on `hi - lo` also bounds the rounds. -/
theorem Accepted.expand {item : List Char} {lo hi : ℤ} (h : Accepted item lo hi) (hhi : hi < longMax) (fuel : ℕ) :
    Rt.expand (4098 + fuel) lo hi = some (cpusOf lo hi) := by
  obtain ⟨-, -, -, -, -, -, -, hle, hspan⟩ := h
  exact expand_eq hhi (by omega)

/-- An item is endless when it is accepted and goes up to the largest `long`. -/
def Endless (item : List Char) : Prop := ∃ lo, Accepted item lo longMax

/-- **The loop passes the items** that are accepted and not endless. -/
theorem parseItems_append {pre items : List (List Char)} {cpus : List (List ℤ)} {out : List ℤ} (fuel : ℕ)
    (h : List.Forall₂ (fun item cs => ∃ lo hi, Accepted item lo hi ∧ hi < longMax ∧ cs = cpusOf lo hi) pre cpus) :
    parseItems (4098 + fuel) (pre ++ items) out = parseItems (4098 + fuel) items (out ++ cpus.flatten) := by
  induction h generalizing out with
  | nil => rw [List.nil_append, List.flatten_nil, List.append_nil]
  | cons hitem _ ih =>
      obtain ⟨lo, hi, hacc, hhi, rfl⟩ := hitem
      rw [List.cons_append, parseItems, parseItem_eq_some_iff.mpr hacc]
      dsimp only
      rw [hacc.expand hhi, Option.bind_some, ih, List.flatten_cons, List.append_assoc]

/-- What `strtol` reads fits in a `long`. -/
theorem Accepted.le_longMax {item : List Char} {lo hi : ℤ} (h : Accepted item lo hi) : hi ≤ longMax := by
  have hnumber : ∀ {t : List Char} {v : ℤ}, NumberText t v → v ≤ longMax := by
    rintro t v ⟨-, -, -, -, -, -, -, -, rfl⟩
    exact saturate_le _
  obtain ⟨_, _, _, _, _, ⟨h₁, rfl⟩ | ⟨_, _, _, _, h₂⟩, _⟩ := h
  · exact hnumber h₁
  · exact hnumber h₂

/-- **The loop stops at a malformed item** with nothing, if no endless one comes before it. -/
theorem parseItems_malformed {pre post : List (List Char)} {item : List Char} {out : List ℤ} (fuel : ℕ)
    (hbad : ∀ lo hi, ¬ Accepted item lo hi) (hpre : ∀ i ∈ pre, ¬ Endless i) :
    parseItems (4098 + fuel) (pre ++ item :: post) out = some [] := by
  induction pre generalizing out with
  | nil =>
      rw [List.nil_append, parseItems]
      -- the first item is the malformed one
      split
      · rfl
      · rename_i lo hi hsome
        exact absurd (parseItem_eq_some_iff.mp hsome) (hbad lo hi)
  | cons i pre ih =>
      rw [List.cons_append, parseItems]
      split
      · rfl
      · rename_i lo hi hsome
        -- its range is finite, so the loop ends with some fuel
        have hacc := parseItem_eq_some_iff.mp hsome
        have hne : hi ≠ longMax := fun heq => hpre i List.mem_cons_self ⟨lo, heq ▸ hacc⟩
        rw [hacc.expand (lt_of_le_of_ne hacc.le_longMax hne), Option.bind_some]
        exact ih fun i hi => hpre i (List.mem_cons_of_mem _ hi)

/-- **What the loop has returned**: nothing, because of a malformed item with no endless one before it, or at least
one CPU for each item. -/
theorem parseItems_eq_some {fuel : ℕ} {items : List (List Char)} {out res : List ℤ}
    (h : parseItems fuel items out = some res) :
    (∃ pre item post, items = pre ++ item :: post ∧ (∀ lo hi, ¬ Accepted item lo hi) ∧ (∀ i ∈ pre, ¬ Endless i)) ∨
    out.length + items.length ≤ res.length := by
  induction items generalizing out with
  | nil =>
      cases h
      exact .inr le_rfl
  | cons item items ih =>
      rw [parseItems] at h
      split at h
      · rename_i hnone
        refine .inl ⟨[], item, items, rfl, fun lo hi hacc => ?_, fun i hi => absurd hi List.not_mem_nil⟩
        rw [parseItem_eq_some_iff.mpr hacc] at hnone
        cases hnone
      · rename_i lo hi hsome
        have hacc := parseItem_eq_some_iff.mp hsome
        obtain ⟨cpus, hcpus, h⟩ := Option.bind_eq_some_iff.mp h
        have hle : lo ≤ hi := hacc.choose_spec.choose_spec.2.2.2.2.2.1
        rcases ih h with ⟨pre, item', post, rfl, hbad, hpre⟩ | hlen
        · refine .inl ⟨item :: pre, item', post, rfl, hbad, fun i hi' => ?_⟩
          rcases List.mem_cons.mp hi' with rfl | hi'
          · -- an endless item would not have let the loop go on
            rintro ⟨lo', hacc'⟩
            have hsame := hsome.symm.trans (parseItem_eq_some_iff.mpr hacc')
            have hhi : hi = longMax := congrArg Prod.snd (Option.some.inj hsame)
            rw [hhi, expand_longMax fuel (hhi ▸ hle)] at hcpus
            cases hcpus
          · exact hpre i hi'
        · refine .inr ?_
          have hpos := List.length_pos_of_ne_nil (expand_eq_some hcpus hle)
          rw [List.length_append] at hlen
          rw [List.length_cons]
          omega

/-! ## Lines -/

/-- The items of a list of items are the items. -/
theorem itemsOf_intercalate {texts : List (List Char)} (hne : texts ≠ []) (hcomma : ∀ t ∈ texts, ',' ∉ t)
    (hempty : ∀ t ∈ texts, t ≠ []) : itemsOf ([','].intercalate texts) = texts := by
  unfold itemsOf
  dsimp only
  rw [List.splitOn_intercalate ',' hcomma hne, if_neg]
  intro hlast
  exact hempty [] (List.mem_of_getLast? hlast) rfl

/-- A line that is not empty has an item. -/
theorem itemsOf_ne_nil {line : List Char} (h : line ≠ []) : itemsOf line ≠ [] := by
  have hjoin : [','].intercalate (line.splitOn ',') = line := List.intercalate_splitOn ','
  unfold itemsOf
  dsimp only
  split_ifs with hlast
  · intro hdrop
    have hparts := List.dropLast_append_getLast? [] hlast
    rw [hdrop] at hparts
    rw [← hparts] at hjoin
    exact h hjoin.symm
  · exact List.splitOn_ne_nil ',' line

/-- The numbers of an item are in order and fit in an `int`. -/
theorem Item.bounds {text : List Char} {n m : ℕ} (h : Item text n m) : n ≤ m ∧ m ≤ intMax := by
  cases h with
  | one h hint => exact ⟨le_rfl, hint⟩
  | range h₁ h₂ hle hint hspan => exact ⟨hle, hint⟩

/-- Counting up to the end of an item does not overflow. -/
theorem Item.lt_longMax {text : List Char} {n m : ℕ} (h : Item text n m) : (m : ℤ) < longMax :=
  (Int.ofNat_le.mpr h.bounds.2).trans_lt (by decide)

/-- The CPUs of an item of the grammar fit an `int`. -/
theorem Item.cpusOf {text : List Char} {n m : ℕ} (h : Item text n m) :
    Rt.cpusOf n m = (List.range' n (m - n + 1)).map fun k : ℕ => (k : ℤ) := by
  obtain ⟨hle, hint⟩ := h.bounds
  have hlen : ((m : ℤ) - n + 1).toNat = m - n + 1 := by omega
  rw [Rt.cpusOf, hlen, List.range'_eq_map_range, List.map_map]
  refine List.map_congr_left fun k hk => ?_
  have hk := List.mem_range.mp hk
  change m ≤ 2147483647 at hint
  show Int.bmod ((n : ℤ) + k) (2 ^ 32) = ((n + k : ℕ) : ℤ)
  rw [Int.bmod_eq_of_le_mul_two (by omega) (by omega), Int.natCast_add]

/-- An item of the grammar is not empty and has no comma. -/
theorem Item.plain {text : List Char} {n m : ℕ} (h : Item text n m) : text ≠ [] ∧ ',' ∉ text := by
  have hno : ∀ {t : List Char} {k : ℕ}, Decimal t k → ',' ∉ t := fun ht hmem =>
    absurd (ht.digits _ hmem) (by decide)
  cases h with
  | one h hint => exact ⟨h.ne_nil, hno h⟩
  | range h₁ h₂ hle hint hspan =>
      refine ⟨List.append_ne_nil_of_left_ne_nil h₁.ne_nil _, fun hmem => ?_⟩
      rcases List.mem_append.mp hmem with hmem | hmem
      · exact hno h₁ hmem
      · exact hno h₂ ((List.mem_cons.mp hmem).resolve_left (by decide))

/-- An item of the grammar is not endless. -/
theorem Item.not_endless {text : List Char} {n m : ℕ} (h : Item text n m) : ¬ Endless text := by
  rintro ⟨lo, hacc⟩
  have hsame := (parseItem_eq_some_iff.mpr h.accepted).symm.trans (parseItem_eq_some_iff.mpr hacc)
  exact h.lt_longMax.ne (congrArg Prod.snd (Option.some.inj hsame))

/-- The CPUs that an item of the grammar denotes. -/
def denoted (i : List Char × ℕ × ℕ) : List ℤ := (List.range' i.2.1 (i.2.2 - i.2.1 + 1)).map fun n : ℕ => (n : ℤ)

/-- An item denotes a CPU at least. -/
theorem denoted_ne_nil (i : List Char × ℕ × ℕ) : denoted i ≠ [] := by
  intro hnil
  have hlen := congrArg List.length hnil
  rw [denoted, List.length_map, List.length_range'] at hlen
  exact Nat.succ_ne_zero _ hlen

/-- **The loop passes items of the grammar.** -/
theorem parseItems_grammar {items : List (List Char × ℕ × ℕ)} (hitems : ∀ i ∈ items, Item i.1 i.2.1 i.2.2)
    (fuel : ℕ) : parseItems (4098 + fuel) (items.map (·.1)) [] = some (items.flatMap denoted) := by
  have hpass : List.Forall₂ (fun item cs => ∃ lo hi, Accepted item lo hi ∧ hi < longMax ∧ cs = cpusOf lo hi)
      (items.map (·.1)) (items.map denoted) := by
    rw [List.forall₂_map_left_iff, List.forall₂_map_right_iff, List.forall₂_same]
    intro i hi
    have hitem := hitems i hi
    exact ⟨i.2.1, i.2.2, hitem.accepted, hitem.lt_longMax, hitem.cpusOf.symm⟩
  have hloop : parseItems (4098 + fuel) (items.map (·.1) ++ []) [] = some ([] ++ _) := parseItems_append fuel hpass
  rw [List.append_nil, List.nil_append] at hloop
  rw [hloop, List.flatMap]

/-- The items of a line of the grammar are found in it. -/
theorem itemsOf_line {items : List (List Char × ℕ × ℕ)} (hne : items ≠ [])
    (hitems : ∀ i ∈ items, Item i.1 i.2.1 i.2.2) :
    itemsOf ([','].intercalate (items.map (·.1))) = items.map (·.1) := by
  refine itemsOf_intercalate (fun hnil => hne (List.map_eq_nil_iff.mp hnil)) (fun t ht => ?_) fun t ht => ?_
  · obtain ⟨i, hi, rfl⟩ := List.mem_map.mp ht
    exact (hitems i hi).plain.2
  · obtain ⟨i, hi, rfl⟩ := List.mem_map.mp ht
    exact (hitems i hi).plain.1

/-- A line of the grammar is parsed. -/
theorem Line.returns {cpu : Int32} {file : Except ErrNo (List Char)} {line : List Char} {cpus : List ℤ}
    (h : Line line cpus) (hcpu : ¬ cpu < 0) (hread : readLine file = .ok line) : Returns cpu file cpus := by
  obtain ⟨items, hne, hitems, rfl, rfl⟩ := h
  refine ⟨4098 + 0, ?_⟩
  rw [rtCoreSiblings, if_neg hcpu, hread]
  dsimp only
  rw [itemsOf_line hne hitems, parseItems_grammar hitems 0]
  rfl

/-- **An item is malformed**, and no endless one comes before it. -/
def Malformed (line : List Char) : Prop :=
  ∃ pre item post, itemsOf line = pre ++ item :: post ∧ (∀ lo hi, ¬ Accepted item lo hi) ∧ ∀ i ∈ pre, ¬ Endless i

/-- A malformed line is reported as nothing. -/
theorem Malformed.returns {cpu : Int32} {file : Except ErrNo (List Char)} {line : List Char}
    (h : Malformed line) (hcpu : ¬ cpu < 0) (hread : readLine file = .ok line) : Returns cpu file [] := by
  obtain ⟨pre, item, post, hitems, hbad, hpre⟩ := h
  refine ⟨4098 + 0, ?_⟩
  rw [rtCoreSiblings, if_neg hcpu, hread]
  dsimp only
  rw [hitems]
  exact parseItems_malformed 0 hbad hpre

/-! ## Lines that are cut -/

/-- **The beginning of an item** is an item too, or is not accepted: it ends with the dash, or its last CPU comes
before its first. -/
theorem Item.of_prefix {text part : List Char} {n m : ℕ} (h : Item text n m) (hpart : part <+: text)
    (hne : part ≠ []) : (∃ a b, Item part a b) ∨ ∀ lo hi, ¬ Accepted part lo hi := by
  cases h with
  | one h hint =>
      obtain ⟨v, hv, hdec⟩ := h.of_prefix hpart hne
      exact .inl ⟨v, v, .one hdec (hv.trans hint)⟩
  | @range t₁ t₂ n m h₁ h₂ hle hint hspan =>
      rcases List.prefix_or_prefix_of_prefix hpart (List.prefix_append t₁ ('-' :: t₂)) with hfirst | ⟨more, rfl⟩
      · obtain ⟨v, hv, hdec⟩ := h₁.of_prefix hfirst hne
        exact .inl ⟨v, v, .one hdec (hv.trans (hle.trans hint))⟩
      rcases List.prefix_cons_iff.mp ((List.prefix_append_right_inj t₁).mp hpart) with rfl | ⟨d, rfl, hd⟩
      · rw [List.append_nil]
        exact .inl ⟨n, n, .one h₁ (hle.trans hint)⟩
      · -- the dash is there, and some of the second number
        have hno : '\x00' ∉ t₁ ++ '-' :: d := by
          intro hmem
          rcases List.mem_append.mp hmem with hmem | hmem
          · exact absurd (h₁.digits _ hmem) (by decide)
          · exact absurd (h₂.digits _ (hd.subset ((List.mem_cons.mp hmem).resolve_left (by decide)))) (by decide)
        have hparse : parseItem (t₁ ++ '-' :: d) = (strtol d).bind fun r => checkItem n r.1 r.2 := by
          have hwhole : cString (t₁ ++ '-' :: d) = t₁ ++ '-' :: d := by
            have hcut : cString (t₁ ++ '-' :: d ++ []) = t₁ ++ '-' :: d := cString_append hno nofun
            rwa [List.append_nil] at hcut
          unfold parseItem
          rw [hwhole, strtol_of_dash (h₁.numberText (natCast_le_longMax (hle.trans hint))), Option.bind_some]
          rfl
        by_cases hnil : d = []
        · refine .inr fun lo hi hacc => ?_
          have hsome := hparse.symm.trans (parseItem_eq_some_iff.mpr hacc)
          rw [hnil] at hsome
          cases hsome
        obtain ⟨v, hv, hdec⟩ := h₂.of_prefix hd hnil
        by_cases hlow : n ≤ v
        · exact .inl ⟨n, v, .range h₁ hdec hlow (hv.trans hint) (by omega)⟩
        · refine .inr fun lo hi hacc => ?_
          have hsome := hparse.symm.trans (parseItem_eq_some_iff.mpr hacc)
          rw [strtol_of_numberText (hdec.numberText (natCast_le_longMax (hv.trans hint))), Option.bind_some] at hsome
          have := (checkItem_eq_some_iff.mp hsome).2.2.1
          omega

/-- **The beginning of a list of items** goes up to some place in one of them. -/
theorem prefix_intercalate {texts : List (List Char)} (hne : texts ≠ []) {text : List Char}
    (h : text <+: [','].intercalate texts) :
    ∃ pre t post part, texts = pre ++ t :: post ∧ part <+: t ∧ text = [','].intercalate (pre ++ [part]) := by
  induction texts generalizing text with
  | nil => exact absurd rfl hne
  | cons t texts ih =>
      cases texts with
      | nil =>
          rw [List.intercalate_singleton] at h
          exact ⟨[], t, [], text, rfl, h, List.intercalate_singleton.symm⟩
      | cons t' texts =>
          rw [List.intercalate_cons_cons] at h
          -- the prefix ends in the first text, or goes on behind it
          rcases List.prefix_or_prefix_of_prefix h ((List.prefix_append t [',']).trans (List.prefix_append _ _))
            with hfirst | ⟨more, rfl⟩
          · exact ⟨[], t, t' :: texts, text, rfl, hfirst, List.intercalate_singleton.symm⟩
          rw [List.append_assoc] at h
          -- it ends just behind the comma, or in a later text
          rcases List.prefix_cons_iff.mp ((List.prefix_append_right_inj t).mp h) with rfl | ⟨text', rfl, h'⟩
          · refine ⟨[], t, t' :: texts, t, rfl, List.prefix_rfl, ?_⟩
            rw [List.append_nil]
            exact List.intercalate_singleton.symm
          · obtain ⟨pre, u, post, part, htexts, hpart, rfl⟩ := ih (List.cons_ne_nil _ _) h'
            refine ⟨t :: pre, u, post, part, by rw [htexts, List.cons_append], hpart, ?_⟩
            have hne : pre ++ [part] ≠ [] := List.append_ne_nil_of_right_ne_nil _ (List.cons_ne_nil _ _)
            rw [List.cons_append, List.intercalate_cons_of_ne_nil hne, List.append_assoc]
            rfl

/-- **The items of a line that is cut**: those before the cut, and what is left of the one that it goes through, if
anything is. -/
theorem itemsOf_cut {before : List (List Char × ℕ × ℕ)} (hbefore : ∀ i ∈ before, Item i.1 i.2.1 i.2.2)
    {part : List Char} (hpart : ',' ∉ part) : itemsOf ([','].intercalate (before.map (·.1) ++ [part])) =
      before.map (·.1) ++ if part = [] then [] else [part] := by
  have hcomma : ∀ t ∈ before.map (·.1) ++ [part], ',' ∉ t := by
    intro t ht
    rcases List.mem_append.mp ht with ht | ht
    · obtain ⟨i, hi, rfl⟩ := List.mem_map.mp ht
      exact (hbefore i hi).plain.2
    · rw [List.mem_singleton.mp ht]
      exact hpart
  unfold itemsOf
  dsimp only
  rw [List.splitOn_intercalate ',' hcomma (List.append_ne_nil_of_right_ne_nil _ (List.cons_ne_nil _ _)),
    List.getLast?_concat]
  -- nothing is found behind a comma at the end
  by_cases hnil : part = []
  · rw [if_pos (congrArg some hnil), if_pos hnil, List.dropLast_concat, List.append_nil]
  · rw [if_neg fun h => hnil (Option.some.inj h), if_neg hnil]

/-- **A line of the grammar that is cut** is parsed as what it says only where what is left of it says the same. -/
theorem Line.of_prefix {line text : List Char} {cpus : List ℤ} {fuel : ℕ} (h : Line line cpus)
    (htext : text <+: line) (hret : parseItems fuel (itemsOf text) [] = some cpus) : Line text cpus := by
  obtain ⟨items, hitemsne, hitems, rfl, rfl⟩ := h
  obtain ⟨pre, t, post, part, hsplit, hpart, rfl⟩ :=
    prefix_intercalate (fun hnil => hitemsne (List.map_eq_nil_iff.mp hnil)) htext
  obtain ⟨before, rest, rfl, rfl, hrest⟩ := List.map_eq_append_iff.mp hsplit
  obtain ⟨i, after, rfl, rfl, -⟩ := List.map_eq_cons_iff.mp hrest
  have hbefore : ∀ j ∈ before, Item j.1 j.2.1 j.2.2 := fun j hj => hitems j (List.mem_append_left _ hj)
  have hitem := hitems i (List.mem_append_right _ List.mem_cons_self)
  have hret := parseItems_add hret 4098
  rw [Nat.add_comm, itemsOf_cut hbefore fun hmem => hitem.plain.2 (hpart.subset hmem)] at hret
  by_cases hnil : part = []
  · -- nothing of the item is there, so its CPUs are missing
    exfalso
    rw [if_pos hnil, List.append_nil, parseItems_grammar hbefore, List.flatMap_append, List.flatMap_cons] at hret
    have hsame := List.append_right_eq_self.mp (Option.some.inj hret).symm
    exact denoted_ne_nil i (List.append_eq_nil_iff.mp hsame).1
  rw [if_neg hnil] at hret
  rcases hitem.of_prefix hpart hnil with ⟨a, b, hcut⟩ | hbad
  · -- what is left of the item is one too
    have hall : ∀ j ∈ before ++ [(part, a, b)], Item j.1 j.2.1 j.2.2 := by
      intro j hj
      rcases List.mem_append.mp hj with hj | hj
      · exact hbefore j hj
      · rw [List.mem_singleton.mp hj]
        exact hcut
    have hmap : before.map (·.1) ++ [part] = (before ++ [(part, a, b)]).map (·.1) := by
      rw [List.map_append]
      rfl
    rw [hmap] at hret ⊢
    rw [parseItems_grammar hall] at hret
    exact ⟨_, List.append_ne_nil_of_right_ne_nil _ (List.cons_ne_nil _ _), hall, rfl, (Option.some.inj hret).symm⟩
  · -- the parser takes none of it
    exfalso
    have hpre : ∀ u ∈ before.map (·.1), ¬ Endless u := by
      intro u hu
      obtain ⟨j, hj, rfl⟩ := List.mem_map.mp hu
      exact (hbefore j hj).not_endless
    rw [parseItems_malformed fuel hbad hpre, List.flatMap_append, List.flatMap_cons] at hret
    have hnothing := (Option.some.inj hret).symm
    exact denoted_ne_nil i (List.append_eq_nil_iff.mp (List.append_eq_nil_iff.mp hnothing).2).1

/-- What is in a joined list is a separator or in one of its parts. -/
theorem mem_intercalate {c sep : Char} {texts : List (List Char)} (h : c ∈ [sep].intercalate texts) :
    c = sep ∨ ∃ t ∈ texts, c ∈ t := by
  induction texts with
  | nil => cases h
  | cons t texts ih =>
      by_cases hne : texts = []
      · rw [hne, List.intercalate_singleton] at h
        exact .inr ⟨t, List.mem_cons_self, h⟩
      rw [List.intercalate_cons_of_ne_nil hne, List.append_assoc] at h
      rcases List.mem_append.mp h with h | h
      · exact .inr ⟨t, List.mem_cons_self, h⟩
      · rcases List.mem_cons.mp h with h | h
        · exact .inl h
        · exact (ih h).imp_right fun ⟨u, hu, hc⟩ => ⟨u, List.mem_cons_of_mem t hu, hc⟩

/-- A byte of a line of the grammar is a digit, a dash or a comma. -/
theorem Line.mem {line : List Char} {cpus : List ℤ} (h : Line line cpus) {c : Char} (hc : c ∈ line) :
    c.isDigit = true ∨ c = '-' ∨ c = ',' := by
  obtain ⟨items, -, hitems, rfl, -⟩ := h
  rcases mem_intercalate hc with rfl | ⟨t, ht, hc⟩
  · exact .inr (.inr rfl)
  obtain ⟨i, hi, rfl⟩ := List.mem_map.mp ht
  have hitem := hitems i hi
  generalize i.1 = text, i.2.1 = n, i.2.2 = m at hitem hc
  cases hitem with
  | one h hint => exact .inl (h.digits c hc)
  | range h₁ h₂ hle hint hspan =>
      rcases List.mem_append.mp hc with hc | hc
      · exact .inl (h₁.digits c hc)
      · rcases List.mem_cons.mp hc with hc | hc
        · exact .inr (.inl hc)
        · exact .inl (h₂.digits c hc)

/-- **Of a line of the grammar** `read_line` takes the first 63 bytes. -/
theorem Line.read {line : List Char} {cpus : List ℤ} (h : Line line cpus) :
    readLine (.ok (shown line)) = .ok (line.take 63) := by
  -- no character of a line is stripped
  have hblank : ∀ c ∈ line, ¬ (c == '\n' || c == ' ') = true := by
    intro c hc hblank
    rcases h.mem hc with hdigit | rfl | rfl
    · rcases Bool.or_eq_true_iff.mp hblank with heq | heq
      · rw [eq_of_beq heq] at hdigit
        cases hdigit
      · rw [eq_of_beq heq] at hdigit
        cases hdigit
    · cases hblank
    · cases hblank
  have hstay : (line.take 63).rdropWhile (fun c => c == '\n' || c == ' ') = line.take 63 :=
    List.rdropWhile_eq_self_iff.mpr fun hne => hblank _ (List.mem_of_mem_take (List.getLast_mem hne))
  have hne : line ≠ [] := by
    obtain ⟨items, hitemsne, hitems, rfl, -⟩ := h
    intro hnil
    have hfound := itemsOf_line hitemsne hitems
    rw [hnil] at hfound
    exact hitemsne (List.map_eq_nil_iff.mp (hfound.symm.trans rfl))
  have htake : line.take 63 ≠ [] := fun hnil => (List.take_eq_nil_iff.mp hnil).elim (by decide) hne
  -- only the newline behind the line is, if the cut has left it
  have hstrip : ((shown line).take 63).rdropWhile (fun c => c == '\n' || c == ' ') = line.take 63 := by
    rw [shown, List.take_append]
    rcases Nat.lt_or_ge line.length 63 with hlt | hge
    · obtain ⟨k, hk⟩ : ∃ k, 63 - line.length = k + 1 := Nat.exists_eq_succ_of_ne_zero (by omega)
      rw [hk, List.take_succ_cons, List.take_nil, List.rdropWhile_concat_pos _ _ _ (by decide), hstay]
    · rw [Nat.sub_eq_zero_of_le hge, List.take_zero, List.append_nil, hstay]
  unfold readLine
  dsimp only
  rw [hstrip, if_neg htake]

/-- **For which lines the parser keeps to the grammar**: a line of the grammar, if its first 63 bytes are one too and
say the same; and a line outside it, if nothing of it is read or an item of what is read is malformed and no endless
one comes before it. -/
theorem core_siblings_iff {cpu : Int32} (hcpu : ¬ cpu < 0) (line : List Char) :
    KeepsToGrammar cpu (.ok (shown line)) line ↔
      (∀ cpus, Line line cpus → Line (line.take 63) cpus) ∧
      ((∀ cpus, ¬ Line line cpus) → ∀ text, readLine (.ok (shown line)) = .ok text → Malformed text) := by
  constructor
  · intro h
    -- a line whose result is right denotes the same CPUs when it is cut
    refine ⟨fun cpus hline => ?_, fun hno text hread => ?_⟩
    · obtain ⟨fuel, hrun⟩ := h.denoted cpus hline
      rw [rtCoreSiblings, if_neg hcpu, hline.read] at hrun
      exact hline.of_prefix (List.take_prefix 63 line) hrun
    · obtain ⟨fuel, hrun⟩ := h.malformed hno
      rw [rtCoreSiblings, if_neg hcpu, hread] at hrun
      -- an empty result comes from a malformed item, as there is at least one item
      refine (parseItems_eq_some hrun).resolve_right fun hlen => ?_
      exact absurd (List.length_eq_zero_iff.mp (Nat.le_zero.mp ((Nat.le_add_left _ _).trans hlen)))
        (itemsOf_ne_nil (ne_nil_of_readLine hread))
  · rintro ⟨hcut, hbad⟩
    -- the other way round, by what `read_line` gives
    refine ⟨fun cpus hline => (hcut cpus hline).returns hcpu hline.read, fun hno => ?_⟩
    cases hread : readLine (.ok (shown line)) with
    | error e =>
        refine ⟨0, ?_⟩
        rw [rtCoreSiblings, if_neg hcpu, hread]
    | ok text => exact (hbad hno text hread).returns hcpu hread

/-- Two siblings. -/
theorem core_siblings_pair : Returns 6 (.ok ['6', ',', '1', '4', '\n']) [6, 14] ∧
    KeepsToGrammar 6 (.ok ['6', ',', '1', '4', '\n']) ['6', ',', '1', '4'] := by
  have hline : Line ['6', ',', '1', '4'] [6, 14] := by
    refine ⟨[(['6'], 6, 6), (['1', '4'], 14, 14)], by decide, fun i hi => ?_, by decide, by decide⟩
    rcases List.mem_cons.mp hi with rfl | hi
    · exact .one ⟨by decide, List.all_eq_true.mp (by decide), by decide⟩ (by decide)
    · obtain rfl := List.mem_singleton.mp hi
      exact .one ⟨by decide, List.all_eq_true.mp (by decide), by decide⟩ (by decide)
  have hcpu : ¬ (6 : Int32) < 0 := by decide
  have hkeeps : KeepsToGrammar 6 (.ok (shown ['6', ',', '1', '4'])) ['6', ',', '1', '4'] :=
    (core_siblings_iff hcpu _).mpr ⟨fun cpus h => h, fun hno => absurd hline (hno _)⟩
  exact ⟨hkeeps.denoted _ hline, hkeeps⟩

/-- `9223372036854775807`. -/
def endlessLine : List Char := Nat.toDigits 10 9223372036854775807

/-- **A line without end**: the loop counts up to the largest `long` and cannot pass it. -/
theorem core_siblings_endless : ¬ ∀ (cpu : Int32) (line : List Char), ¬ cpu < 0 →
    KeepsToGrammar cpu (.ok (shown line)) line := by
  intro h
  have hread : readLine (.ok (shown endlessLine)) = .ok endlessLine := by decide
  have hkeeps := h 0 endlessLine (by decide)
  have hsplit : itemsOf endlessLine = [endlessLine] := by decide
  have hparse : parseItem endlessLine = some (longMax, longMax) := by decide
  -- the range up to `LONG_MAX` never ends
  have hnever : ∀ out, ¬ Returns 0 (.ok (shown endlessLine)) out := by
    rintro out ⟨fuel, hrun⟩
    rw [rtCoreSiblings, if_neg (by decide), hread] at hrun
    dsimp only at hrun
    rw [hsplit, parseItems, hparse] at hrun
    dsimp only at hrun
    rw [expand_longMax fuel le_rfl] at hrun
    cases hrun
  -- whether the line is in the grammar or not, it should have returned
  by_cases hline : ∃ cpus, Line endlessLine cpus
  · obtain ⟨cpus, hline⟩ := hline
    exact hnever cpus (hkeeps.denoted cpus hline)
  · exact hnever [] (hkeeps.malformed (not_exists.mp hline))

end Axon.Rt
