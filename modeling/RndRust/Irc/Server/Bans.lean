import RndRust.Irc.Server.Connection
import RndRust.Lib.Glob

/-! Ban masks. The matcher knows a star at one end of its pattern. What it lets match does
match, and with stars in other places it finds less than there is. -/
namespace RndRust.Irc.Server
open Lib Proto

abbrev asterisk : UInt8 := 42

/-- The text is the pattern with a string for each `*`, letters of either case alike. -/
def GlobsCaseless (pattern text : Bytes) : Prop := Globs asterisk (toAsciiLowercase pattern) (toAsciiLowercase text)

/-- The ban is in force at `now`. -/
def Kline.Unexpired (kline : Kline) (now : ℕ) : Prop := ∀ expiry ∈ kline.expires, now < expiry

section Matching

variable {pattern text pat val : Bytes} {b mark : UInt8}

/-- Only letters have a case. -/
theorem lowercaseByte_eq_iff (low : mark < 65) : asciiLowercaseByte b = mark ↔ b = mark := by
  unfold asciiLowercaseByte
  split
  · rename_i upper
    simp only [Bool.and_eq_true, decide_eq_true_eq, UInt8.le_iff_toNat_le, UInt8.lt_iff_toNat_lt, ← UInt8.toNat_inj,
      UInt8.toNat_add, UInt8.toNat_ofNat, Nat.reducePow, Nat.reduceMod] at *
    omega
  · rfl

theorem mem_lowercase_iff (low : mark < 65) : mark ∈ toAsciiLowercase text ↔ mark ∈ text := by
  simp [toAsciiLowercase, lowercaseByte_eq_iff low]

theorem lowercase_eq_iff {low : Bytes} (small : ∀ b ∈ low, b < 65) : toAsciiLowercase text = low ↔ text = low := by
  induction text generalizing low with
  | nil => rfl
  | cons b text ih =>
    cases low with
    | nil => simp [toAsciiLowercase]
    | cons mark low =>
      obtain ⟨own, small⟩ := List.forall_mem_cons.mp small
      rw [List.cons_eq_cons, ← ih small, ← lowercaseByte_eq_iff own]
      exact List.cons_eq_cons

theorem starAtOneEnd_lowercase : StarAtOneEnd asterisk (toAsciiLowercase pattern) ↔ StarAtOneEnd asterisk pattern :=
  starAtOneEnd_map fun _ => lowercaseByte_eq_iff (by decide)

/-- What `glob_match` compares, both sides in lower case. -/
inductive EndMatch (pat val : Bytes) : Prop
  | whole : pat = val → EndMatch pat val
  | front (stem : Bytes) : pat = stem ++ [asterisk] → stem <+: val → EndMatch pat val
  | back (stem : Bytes) : pat = asterisk :: stem → stem <:+ val → EndMatch pat val

theorem globMatch_endMatch (matched : globMatch pattern text) :
    EndMatch (toAsciiLowercase pattern) (toAsciiLowercase text) := by
  unfold globMatch at matched
  dsimp only at matched
  split_ifs at matched with whole bare last first
  · exact .whole whole
  · exact .front [] bare List.nil_prefix
  · obtain ⟨stem, ending⟩ := List.getLast?_eq_some_iff.mp last
    rw [ending, List.dropLast_concat, List.isPrefixOf_iff_prefix] at matched
    exact .front stem ending matched
  · obtain ⟨stem, start⟩ := List.head?_eq_some_iff.mp first
    rw [start, List.tail_cons, List.isSuffixOf_iff_suffix] at matched
    exact .back stem start matched

theorem globMatch_of_front {stem : Bytes} (ending : toAsciiLowercase pattern = stem ++ [asterisk])
    (found : stem <+: toAsciiLowercase text) : globMatch pattern text := by
  unfold globMatch
  dsimp only
  split_ifs with _ _ last
  · rfl
  · rfl
  · rwa [ending, List.dropLast_concat, List.isPrefixOf_iff_prefix]
  all_goals exact (last (by rw [ending, List.getLast?_concat])).elim

theorem globMatch_of_back {stem : Bytes} (plain : asterisk ∉ stem) (start : toAsciiLowercase pattern = asterisk :: stem)
    (found : stem <:+ toAsciiLowercase text) : globMatch pattern text := by
  unfold globMatch
  dsimp only
  split_ifs with _ bare last first
  · rfl
  · rfl
  · -- A second star would stand at the end of the stem.
    rw [start] at bare last
    cases stem with
    | nil => exact (bare rfl).elim
    | cons b stem =>
      rw [List.getLast?_cons_cons] at last
      exact (plain (List.mem_of_getLast? last)).elim
  · rwa [start, List.tail_cons, List.isSuffixOf_iff_suffix]
  · exact (first (by rw [start, List.head?_cons])).elim

theorem EndMatch.globs (found : EndMatch pat val) : Globs asterisk pat val := by
  cases found with
  | whole same => exact same ▸ .refl pat
  | front stem ending found =>
    obtain ⟨rest, rfl⟩ := found
    exact ending ▸ (Globs.refl stem).append globs_star_iff
  | back stem start found =>
    obtain ⟨before, rfl⟩ := found
    exact start ▸ .any before (.refl stem)

/-- A text without a star is found only by a pattern with at most one. -/
theorem EndMatch.oneEnd (found : EndMatch pat val) (plain : asterisk ∉ val) : StarAtOneEnd asterisk pat := by
  cases found with
  | whole same => exact .inl (same ▸ plain)
  | front stem ending found => exact .inr ⟨stem, fun inside => plain (found.subset inside), .inr ending⟩
  | back stem start found => exact .inr ⟨stem, fun inside => plain (found.subset inside), .inl start⟩

/-- What is let match does match. -/
theorem globMatch_sound (matched : globMatch pattern text) : GlobsCaseless pattern text :=
  (globMatch_endMatch matched).globs

theorem globMatch_iff (one : StarAtOneEnd asterisk pattern) : globMatch pattern text ↔ GlobsCaseless pattern text := by
  refine ⟨globMatch_sound, fun globs => ?_⟩
  rw [GlobsCaseless] at globs
  rcases starAtOneEnd_lowercase.mpr one with plain | ⟨stem, plain, start | ending⟩
  · simp [globMatch, (globs_plain_iff plain).mp globs]
  · rw [start, globs_suffix_iff plain] at globs
    exact globMatch_of_back plain start globs
  · rw [ending, globs_prefix_iff plain] at globs
    exact globMatch_of_front ending globs

/-- The pattern without its stars, in which no star is left. -/
theorem globs_bare (pattern : Bytes) : GlobsCaseless pattern (pattern.filter (· ≠ asterisk)) := by
  have alike : toAsciiLowercase (pattern.filter (· ≠ asterisk)) = (toAsciiLowercase pattern).filter (· ≠ asterisk) := by
    rw [toAsciiLowercase, toAsciiLowercase, List.filter_map]
    congr 2
    funext b
    simp [lowercaseByte_eq_iff (show asterisk < 65 by decide)]
  rw [GlobsCaseless, alike]
  exact .bare _

theorem bare_plain : asterisk ∉ toAsciiLowercase (pattern.filter (· ≠ asterisk)) := by
  simp [mem_lowercase_iff (show asterisk < 65 by decide)]

/-- The patterns that are matched as they should be, whatever the text. -/
theorem globMatch_right_iff : (∀ text, globMatch pattern text ↔ GlobsCaseless pattern text) ↔ StarAtOneEnd asterisk pattern := by
  refine ⟨fun right => ?_, fun one text => globMatch_iff one⟩
  have matched := (right _).mpr (globs_bare pattern)
  exact starAtOneEnd_lowercase.mp ((globMatch_endMatch matched).oneEnd bare_plain)

end Matching

section Masks

variable {mask host : Bytes} {now : ℕ} {s : ServerState}

theorem maskHost_cases (mask : Bytes) :
    atSign ∉ maskHost mask ∧ (maskHost mask = mask ∨ ∃ before, mask = before ++ atSign :: maskHost mask) := by
  by_cases signed : atSign ∈ mask
  · obtain ⟨after, before, split, last⟩ := List.eq_append_cons_of_mem (List.mem_reverse.mpr signed)
    have last : atSign ∉ after.reverse := by simpa using last
    have cut : mask = before.reverse ++ atSign :: after.reverse := by simpa using congrArg List.reverse split
    have kept : maskHost mask = after.reverse := by
      rw [maskHost, cut, List.splitOn_append_cons_self, List.splitOn_eq_singleton last, List.getLastD_concat]
    rw [kept]
    exact ⟨last, .inr ⟨before.reverse, cut⟩⟩
  · have kept : maskHost mask = mask := by rw [maskHost, List.splitOn_eq_singleton signed]; rfl
    rw [kept]
    exact ⟨signed, .inl rfl⟩

/-- The masks of nothing but a nick and a user that match every host. -/
def bareMasks : List Bytes := [ascii "**", ascii "*!*", ascii "*!**"]

/-- What is found in front of the `@` of `*!*@host` is of no host. -/
theorem endMatch_unsigned {low pat : Bytes} (plain : atSign ∉ pat)
    (found : EndMatch pat ([asterisk, bang, asterisk] ++ atSign :: low)) :
    EndMatch pat low ∨ pat ∈ bareMasks := by
  cases found with
  | whole same => exact (plain (same ▸ List.mem_append_right _ List.mem_cons_self)).elim
  | front stem ending found =>
    have stays : atSign ∉ stem := fun inside => plain (ending ▸ List.mem_append_left _ inside)
    subst ending
    rcases stem with _ | ⟨a, _ | ⟨b, _ | ⟨c, _ | ⟨d, rest⟩⟩⟩⟩
    · exact .inl (.front [] rfl List.nil_prefix)
    all_goals simp only [List.cons_append, List.nil_append, List.cons_prefix_cons] at found
    · obtain ⟨rfl, -⟩ := found
      exact .inr (by decide)
    · obtain ⟨rfl, rfl, -⟩ := found
      exact .inr (by decide)
    · obtain ⟨rfl, rfl, rfl, -⟩ := found
      exact .inr (by decide)
    · obtain ⟨-, -, -, rfl, -⟩ := found
      simp at stays
  | back stem start found =>
    obtain ⟨prior, whole⟩ := found
    have stays : atSign ∉ stem := fun inside => plain (start ▸ List.mem_cons_of_mem _ inside)
    rcases List.append_eq_append_iff.mp whole with ⟨middle, -, split⟩ | ⟨middle, -, split⟩
    · exact (stays (split ▸ List.mem_append_right middle List.mem_cons_self)).elim
    · cases middle with
      | nil => exact (stays ((show atSign :: low = stem from split) ▸ List.mem_cons_self)).elim
      | cons b middle =>
        obtain ⟨-, rfl⟩ := List.cons_eq_cons.mp split
        exact .inl (.back stem start (List.suffix_append middle stem))

/-- What ends in a host of its own is found with it in the host. -/
theorem endMatch_signed {before low pat : Bytes} (unsigned : atSign ∉ low)
    (found : EndMatch (before ++ atSign :: pat) ([asterisk, bang, asterisk] ++ atSign :: low)) : EndMatch pat low := by
  have front : atSign ∉ [asterisk, bang, asterisk] := by decide
  cases found with
  | whole same => exact .whole ((List.append_cons_inj_of_notMem front unsigned).mp same.symm).2.2.symm
  | front stem ending found =>
    obtain ⟨rest, whole⟩ := found
    obtain ⟨hosts, rfl, rfl⟩ : ∃ hosts, pat = hosts ++ [asterisk] ∧ stem = before ++ atSign :: hosts := by
      rcases List.eq_nil_or_concat pat with none | ⟨hosts, b, last⟩
      · rw [none] at ending
        cases (List.append_inj' ending rfl).2
      · rw [List.concat_eq_append] at last
        rw [last, ← List.cons_append, ← List.append_assoc] at ending
        obtain ⟨rfl, same⟩ := List.append_inj' ending rfl
        exact ⟨hosts, last.trans (by rw [same]), rfl⟩
    rw [List.append_assoc, List.cons_append] at whole
    obtain ⟨-, -, same⟩ := (List.append_cons_inj_of_notMem front unsigned).mp whole.symm
    exact .front hosts rfl (same ▸ List.prefix_append hosts rest)
  | back stem start found =>
    obtain ⟨prior, whole⟩ := found
    obtain ⟨middle, rfl⟩ : ∃ middle, stem = middle ++ atSign :: pat := by
      cases before with
      | nil => cases (List.cons_eq_cons.mp start).1
      | cons b middle => exact ⟨middle, (List.cons_eq_cons.mp start).2.symm⟩
    rw [← List.append_assoc] at whole
    exact .whole ((List.append_cons_inj_of_notMem front unsigned).mp whole.symm).2.2.symm

/-- What is found in `*!*@host` is found in the host, unless the mask names no host at all. -/
theorem endMatch_full (unsigned : atSign ∉ host)
    (found : EndMatch (toAsciiLowercase mask) (toAsciiLowercase (ascii "*!*@" ++ host))) :
    EndMatch (toAsciiLowercase (maskHost mask)) (toAsciiLowercase host) ∨ mask ∈ bareMasks := by
  have full : toAsciiLowercase (ascii "*!*@" ++ host) = [asterisk, bang, asterisk] ++ atSign :: toAsciiLowercase host := rfl
  rw [full] at found
  obtain ⟨plain, hosted | ⟨before, cut⟩⟩ := maskHost_cases mask
  · rw [hosted] at plain ⊢
    refine (endMatch_unsigned ((mem_lowercase_iff (by decide)).not.mpr plain) found).imp_right fun bare => ?_
    have small : ∀ pat ∈ bareMasks, ∀ b ∈ pat, b < 65 := by decide +kernel
    rwa [(lowercase_eq_iff (small _ bare)).mp rfl]
  · have cut : toAsciiLowercase mask = toAsciiLowercase before ++ atSign :: toAsciiLowercase (maskHost mask) :=
      (congrArg toAsciiLowercase cut).trans List.map_append
    rw [cut] at found
    exact .inl (endMatch_signed ((mem_lowercase_iff (by decide)).not.mpr unsigned) found)

/-- What `is_klined` asks of a mask. -/
def bans (mask host : Bytes) : Bool := globMatch (maskHost mask) host || globMatch mask (ascii "*!*@" ++ host)

theorem isKlined_isSome_iff : (s.isKlined now host).isSome ↔ ∃ kline ∈ s.klines, kline.Unexpired now ∧ bans kline.mask host := by
  rw [ServerState.isKlined, List.find?_isSome]
  refine exists_congr fun kline => and_congr_right fun _ => ?_
  rw [Bool.and_eq_true, bans, Kline.Unexpired]
  refine and_congr_left fun _ => ?_
  cases kline.expires <;> simp

/-- A mask of nothing but a nick and a user has two stars. -/
theorem bareMasks_stars : ∀ mask ∈ bareMasks, 1 < (maskHost mask).count asterisk := by decide

/-- The masks that ban whom they should, whatever the host. -/
theorem bans_right_iff : (∀ host, atSign ∉ host → (bans mask host ↔ GlobsCaseless (maskHost mask) host)) ↔
    StarAtOneEnd asterisk (maskHost mask) ∨ mask = ascii "**" := by
  constructor
  · intro right
    have unsigned : atSign ∉ (maskHost mask).filter (· ≠ asterisk) := fun inside =>
      (maskHost_cases mask).1 (List.mem_of_mem_filter inside)
    have banned := (right _ unsigned).mpr (globs_bare (maskHost mask))
    have found : EndMatch (toAsciiLowercase (maskHost mask)) (toAsciiLowercase ((maskHost mask).filter (· ≠ asterisk))) ∨
        mask ∈ bareMasks := by
      rcases (Bool.or_eq_true _ _).mp banned with own | full
      · exact .inl (globMatch_endMatch own)
      · exact endMatch_full unsigned (globMatch_endMatch full)
    rcases found with found | bare
    · exact .inl (starAtOneEnd_lowercase.mp (found.oneEnd bare_plain))
    -- `*!*` bans the empty host, in which there is no `!`.
    · have wrong (banned : bans mask []) (named : bang ∈ toAsciiLowercase (maskHost mask)) : mask = ascii "**" := by
        cases ((right [] (by decide)).mp banned).mem named (by decide)
      simp only [bareMasks, List.mem_cons, List.not_mem_nil, or_false] at bare
      rcases bare with rfl | rfl | rfl
      · exact .inr rfl
      · exact .inr (wrong (by decide) (by decide))
      · exact .inr (wrong (by decide) (by decide))
  · rintro (one | rfl) host unsigned
    · rw [bans, Bool.or_eq_true, globMatch_iff one]
      refine ⟨fun matched => matched.elim id fun full => ?_, .inl⟩
      rcases endMatch_full unsigned (globMatch_endMatch full) with found | bare
      · exact found.globs
      · exact absurd one.count_le (Nat.not_le.mpr (bareMasks_stars mask bare))
    · have full : globMatch (ascii "**") (ascii "*!*@" ++ host) :=
        @globMatch_of_front _ _ [asterisk] rfl (List.prefix_append [asterisk] (toAsciiLowercase (ascii "!*@" ++ host)))
      have always : Globs asterisk [asterisk, asterisk] (toAsciiLowercase host) := by
        simpa using Globs.any (toAsciiLowercase host) (Globs.any [] Globs.nil)
      exact iff_of_true ((Bool.or_eq_true _ _).mpr (.inr full)) always

/-- **Ban masks match like globs** where at most one star stands in them, at the start or at the
end of the pattern: of a pattern for every text, and of the masks of K-lines for every host. -/
theorem bans_exact_iff (s : ServerState) :
    (∀ pattern, (∀ text, globMatch pattern text ↔ GlobsCaseless pattern text) ↔ StarAtOneEnd asterisk pattern) ∧
    ∀ masks : Set Bytes,
      (∀ klines now host, (∀ kline ∈ klines, kline.mask ∈ masks) → atSign ∉ host →
        (({ s with klines }.isKlined now host).isSome ↔
          ∃ kline ∈ klines, kline.Unexpired now ∧ GlobsCaseless (maskHost kline.mask) host)) ↔
      ∀ mask ∈ masks, StarAtOneEnd asterisk (maskHost mask) ∨ mask = ascii "**" := by
  refine ⟨fun pattern => globMatch_right_iff, fun masks => ⟨fun exact mask listed => ?_, fun right => ?_⟩⟩
  · refine bans_right_iff.mp fun host unsigned => ?_
    have single := exact [⟨mask, [], [], none⟩] 0 host (by simpa using listed) unsigned
    rw [isKlined_isSome_iff] at single
    simpa [Kline.Unexpired] using single
  · intro klines now host listed unsigned
    rw [isKlined_isSome_iff]
    refine exists_congr fun kline => and_congr_right fun member => and_congr_right fun _ => ?_
    exact bans_right_iff.mpr (right _ (listed kline member)) host unsigned

/-- With a star at both ends the pattern finds nothing, and the K-line bans nobody. -/
theorem globMatch_both_ends :
    let mask := ascii "*.0.2.*"
    let host := ascii "192.0.2.7"
    GlobsCaseless (maskHost mask) host ∧ ¬globMatch mask host ∧
      { exampleServer.initial.state with klines := [⟨mask, ascii "ban", ascii "root", none⟩] }.isKlined 0 host = none := by
  have globs : Globs asterisk ([asterisk] ++ ascii ".0.2." ++ [asterisk]) (ascii "192" ++ ascii ".0.2." ++ ascii "7") :=
    (globs_star_iff.append (.refl _)).append globs_star_iff
  exact ⟨globs, by decide, by decide⟩

end Masks

end RndRust.Irc.Server
