import Mathlib.Data.List.AList
import TinySox.ByteBuffer

/-!
# The arguments of the program

The loop at the start of `main` fills a map from options to values. An argument is either the value
of the option before it, or has to look like an option. Nothing is checked when the arguments end:
an option that still waits for its value is dropped.

So the loop reads exactly the sequences of options with values, and those followed by one more
option. The last value of an option wins.
-/

namespace TinySox

/-- `std::unordered_map<std::string,std::string> args` -/
abbrev ArgMap := AList fun _ : Bytes => Bytes

/-- The bytes of an ASCII literal. -/
def ascii (text : String) : Bytes := text.toList.map fun c => UInt8.ofNat c.toNat

/-- `-` -/
def dash : UInt8 := 45

/-- `std::string(arg).length()>=2 && std::string(arg).front()=='-'` -/
def isOptionName (arg : Bytes) : Bool := ¬(arg.length < 2 ∨ arg.head? ≠ some dash)

/-- The variables of the loop, and the argument before the next one. -/
structure ArgLoop where
  args : ArgMap
  isArgValue : Bool
  prev : Bytes

/-- One round of the loop. -/
def ArgLoop.step (s : ArgLoop) (arg : Bytes) : Option ArgLoop :=
  if s.isArgValue then some ⟨s.args.insert s.prev arg, false, arg⟩
  else if isOptionName arg then some ⟨s.args, true, arg⟩
  else none

/-- The loop over `argv[1..argc)`: the map, or nothing if an argument is invalid. -/
def parseArgs (argv0 : Bytes) (arguments : List Bytes) : Option ArgMap :=
  (arguments.foldlM ArgLoop.step ⟨∅, false, argv0⟩).map ArgLoop.args

/-- An option with its value. -/
structure OptionValue where
  name : Bytes
  value : Bytes
  named : isOptionName name = true

/-- The arguments that spell these options and values. -/
def spell (pairs : List OptionValue) : List Bytes := pairs.flatMap fun p => [p.name, p.value]

/-- The last value that is given for an option. -/
def lastValue : List OptionValue → Bytes → Option Bytes
  | [], _ => none
  | p :: rest, name => (lastValue rest name).or (if p.name = name then some p.value else none)

/-- The arguments end with an option that has no value. -/
def Dangling (arguments : List Bytes) : Prop :=
  ∃ pairs last, isOptionName last = true ∧ arguments = spell pairs ++ [last]

/-- The loop accepts the sequences of options with values and no others, and keeps the last value of
each option. -/
structure Grammatical (argv0 : Bytes) (arguments : List Bytes) : Prop where
  accepts : (parseArgs argv0 arguments).isSome ↔ ∃ pairs, arguments = spell pairs
  lastValues : ∀ args pairs, parseArgs argv0 arguments = some args → arguments = spell pairs →
    ∀ name, args.lookup name = lastValue pairs name
  complete : Dangling arguments → parseArgs argv0 arguments = none

/-- The values are entered in order. -/
def enter (args : ArgMap) : List OptionValue → ArgMap
  | [] => args
  | p :: rest => enter (args.insert p.name p.value) rest

/-- The last value wins over those before it, and over what was in the map. -/
theorem lookup_enter (args : ArgMap) (pairs : List OptionValue) (name : Bytes) :
    (enter args pairs).lookup name = (lastValue pairs name).or (args.lookup name) := by
  induction pairs generalizing args with
  | nil => rfl
  | cons p rest ih =>
    rw [enter, ih, lastValue, Option.or_assoc]
    congr 1
    by_cases hname : p.name = name
    · rw [if_pos hname, ← hname, AList.lookup_insert, Option.some_or]
    · rw [if_neg hname, AList.lookup_insert_ne (Ne.symm hname), Option.none_or]

/-- Options with values are read one after the other. -/
theorem foldlM_spell (args : ArgMap) (prev : Bytes) (pairs : List OptionValue) (rest : List Bytes) :
    ∃ prev', (spell pairs ++ rest).foldlM ArgLoop.step ⟨args, false, prev⟩ =
      rest.foldlM ArgLoop.step ⟨enter args pairs, false, prev'⟩ := by
  induction pairs generalizing args prev with
  | nil => exact ⟨prev, rfl⟩
  | cons p pairs ih =>
    obtain ⟨prev', hrest⟩ := ih (args.insert p.name p.value) p.value
    refine ⟨prev', ?_⟩
    have hname : ArgLoop.step ⟨args, false, prev⟩ p.name = some ⟨args, true, p.name⟩ := by
      rw [ArgLoop.step, if_neg Bool.false_ne_true, if_pos p.named]
    have hvalue : ArgLoop.step ⟨args, true, p.name⟩ p.value =
        some ⟨args.insert p.name p.value, false, p.value⟩ := rfl
    rw [spell, List.flatMap_cons, List.append_assoc, List.cons_append, List.cons_append,
      List.nil_append, List.foldlM_cons, hname, Option.bind_eq_bind, Option.bind_some,
      List.foldlM_cons, hvalue, Option.bind_eq_bind, Option.bind_some]
    exact hrest

/-- Whatever the loop accepts is options with values, and perhaps one more option. -/
theorem exists_spell {s : ArgLoop} (args : ArgMap) (prev : Bytes) (arguments : List Bytes)
    (h : arguments.foldlM ArgLoop.step ⟨args, false, prev⟩ = some s) :
    ∃ pairs, (arguments = spell pairs ∨
      ∃ last, isOptionName last = true ∧ arguments = spell pairs ++ [last]) ∧
      s.args = enter args pairs := by
  match arguments with
  | [] =>
    cases h
    exact ⟨[], .inl rfl, rfl⟩
  | name :: rest =>
    simp only [List.foldlM_cons, ArgLoop.step, Bool.false_eq_true, if_false] at h
    by_cases hname : isOptionName name = true
    · rw [if_pos hname, Option.bind_eq_bind, Option.bind_some] at h
      match rest with
      | [] =>
        cases h
        exact ⟨[], .inr ⟨name, hname, rfl⟩, rfl⟩
      | value :: rest =>
        simp only [List.foldlM_cons, ArgLoop.step, if_true, Option.bind_eq_bind, Option.bind_some] at h
        obtain ⟨pairs, hspell, hargs⟩ := exists_spell _ _ rest h
        refine ⟨⟨name, value, hname⟩ :: pairs, ?_, hargs⟩
        rcases hspell with rfl | ⟨last, hlast, rfl⟩
        · exact .inl rfl
        · exact .inr ⟨last, hlast, rfl⟩
    · rw [if_neg hname] at h
      cases h

/-- What the loop accepts, and the map that it makes. -/
theorem parseArgs_eq_some_iff {argv0 : Bytes} {arguments : List Bytes} {args : ArgMap} :
    parseArgs argv0 arguments = some args ↔
      ∃ pairs, (arguments = spell pairs ∨
        ∃ last, isOptionName last = true ∧ arguments = spell pairs ++ [last]) ∧
        args = enter ∅ pairs := by
  rw [parseArgs, Option.map_eq_some_iff]
  constructor
  · rintro ⟨s, hs, rfl⟩
    exact exists_spell _ _ arguments hs
  · rintro ⟨pairs, rfl | ⟨last, hlast, rfl⟩, rfl⟩
    · obtain ⟨prev', hread⟩ := foldlM_spell ∅ argv0 pairs []
      rw [List.append_nil] at hread
      exact ⟨_, hread, rfl⟩
    · obtain ⟨prev', hread⟩ := foldlM_spell ∅ argv0 pairs [last]
      have hlast' : [last].foldlM ArgLoop.step ⟨enter ∅ pairs, false, prev'⟩ =
          some ⟨enter ∅ pairs, true, last⟩ := by
        simp [ArgLoop.step, hlast]
      exact ⟨_, hread.trans hlast', rfl⟩

/-- Options with values are an even number of arguments. -/
theorem length_spell (pairs : List OptionValue) : (spell pairs).length = 2 * pairs.length := by
  induction pairs with
  | nil => rfl
  | cons p rest ih =>
    have hcons : (spell (p :: rest)).length = (spell rest).length + 2 := by
      rw [spell, List.flatMap_cons, List.length_append]
      exact Nat.add_comm _ _
    rw [hcons, ih, List.length_cons, Nat.mul_add]

/-- The grammar of the command line. The loop reads exactly the sequences of options with values,
with the last value of each, unless the arguments end with an option that has no value. -/
theorem grammatical_iff (argv0 : Bytes) (arguments : List Bytes) :
    Grammatical argv0 arguments ↔ ¬Dangling arguments := by
  constructor
  · intro h hdangling
    obtain ⟨pairs, last, hlast, rfl⟩ := hdangling
    have hsome : parseArgs argv0 (spell pairs ++ [last]) = some (enter ∅ pairs) :=
      parseArgs_eq_some_iff.mpr ⟨pairs, .inr ⟨last, hlast, rfl⟩, rfl⟩
    have hnone := h.complete ⟨pairs, last, hlast, rfl⟩
    rw [hsome] at hnone
    cases hnone
  · intro hcomplete
    constructor
    · rw [Option.isSome_iff_exists]
      constructor
      · rintro ⟨args, hargs⟩
        obtain ⟨pairs, hspell | ⟨last, hlast, hspell⟩, -⟩ := parseArgs_eq_some_iff.mp hargs
        · exact ⟨pairs, hspell⟩
        · exact absurd ⟨pairs, last, hlast, hspell⟩ hcomplete
      · rintro ⟨pairs, hspell⟩
        exact ⟨enter ∅ pairs, parseArgs_eq_some_iff.mpr ⟨pairs, .inl hspell, rfl⟩⟩
    · intro args pairs hargs hspell name
      have hread : parseArgs argv0 arguments = some (enter ∅ pairs) :=
        parseArgs_eq_some_iff.mpr ⟨pairs, .inl hspell, rfl⟩
      cases hargs.symm.trans hread
      rw [lookup_enter, AList.lookup_empty, Option.or_none]
    · exact fun hdangling => absurd hdangling hcomplete

/-- With a user name missing at the end, the loop accepts the port alone, and the map has no user. -/
theorem trailing_option_dropped :
    Dangling [ascii "-p", ascii "1080", ascii "-usr"] ∧
      (∃ args, parseArgs (ascii "tinysox") [ascii "-p", ascii "1080", ascii "-usr"] = some args ∧
        args.lookup (ascii "-p") = some (ascii "1080") ∧ args.lookup (ascii "-usr") = none) ∧
      ¬Grammatical (ascii "tinysox") [ascii "-p", ascii "1080", ascii "-usr"] := by
  have hdangling : Dangling [ascii "-p", ascii "1080", ascii "-usr"] :=
    ⟨[⟨ascii "-p", ascii "1080", by decide⟩], ascii "-usr", by decide, rfl⟩
  refine ⟨hdangling, ⟨_, rfl, by decide, by decide⟩, fun h => ?_⟩
  have hnone := h.complete hdangling
  contradiction

end TinySox
