import Devcontainer.FileTree
import Devcontainer.Proofs.Path

/-!
# Places in a tree

What a path leads to is a place: a list of names below directories, with something there that is no
link. The path through the names of a place leads to that place again, so two paths lead to one place
exactly when they have the same path without links.
-/

namespace Devcontainer

structure IsName (name : String) : Prop where
  ne_empty : name ≠ ""
  ne_dot : name ≠ "."
  ne_dots : name ≠ ".."
  no_slash : '/' ∉ name.toList

namespace FileTree

/-- There is something at the place and above it, and none of it is a link. -/
structure IsPlace (t : FileTree) (place : List String) : Prop where
  names : ∀ name ∈ place, IsName name
  above : ∀ before name after, place = before ++ name :: after → t.isDirectory before = true
  exists_entry : ∃ entry, t.get? place = some entry
  not_link : ∀ target, t.get? place ≠ some (.link target)

variable {t : FileTree}

theorem get?_of_isDirectory {place : List String} (h : t.isDirectory place = true) :
    t.get? place = some .directory := by
  simpa [isDirectory] using h

theorem isPlace_nil : t.IsPlace [] where
  names := nofun
  above before name after h := by simp at h
  exists_entry := ⟨.directory, rfl⟩
  not_link target h := by simp [get?] at h

theorem IsPlace.append_singleton {here : List String} (h : t.IsPlace here)
    (hdir : t.isDirectory here = true) {name : String} (hname : IsName name) {entry : Entry}
    (hentry : t.get? (here ++ [name]) = some entry) (hlink : ∀ target, entry ≠ .link target) :
    t.IsPlace (here ++ [name]) where
  names n hn := by
    rcases List.mem_append.1 hn with hn | hn
    · exact h.names n hn
    · exact List.mem_singleton.1 hn ▸ hname
  above before n after heq := by
    rcases List.eq_nil_or_concat after with rfl | ⟨after, last, rfl⟩
    · obtain ⟨rfl, -⟩ := List.append_inj' heq rfl
      exact hdir
    · have hhere : here = before ++ n :: after := by
        have heq' : here ++ [name] = (before ++ n :: after) ++ [last] := by simpa using heq
        exact (List.append_inj' heq' rfl).1
      exact h.above before n after hhere
  exists_entry := ⟨entry, hentry⟩
  not_link target htarget := hlink target (Option.some.inj (hentry.symm.trans htarget))

theorem IsPlace.dropLast {here : List String} (h : t.IsPlace here) : t.IsPlace here.dropLast := by
  rcases List.eq_nil_or_concat here with rfl | ⟨before, name, rfl⟩
  · exact h
  · rw [List.concat_eq_append] at h ⊢
    rw [List.dropLast_concat]
    have hdir : t.isDirectory before = true := h.above before name [] rfl
    refine ⟨fun n hn => h.names n (List.mem_append_left _ hn), ?_, ?_, ?_⟩
    · intro before' n after heq
      exact h.above before' n (after ++ [name]) (by simp [heq])
    · exact ⟨_, get?_of_isDirectory hdir⟩
    · intro target htarget
      rw [get?_of_isDirectory hdir] at htarget
      cases htarget

/-! ## Where a walk ends -/

theorem isPlace_of_walk {jump : List String → List String → Option (List String)}
    (hjump : ∀ here parts place, t.IsPlace here → (∀ part ∈ parts, '/' ∉ part.toList) →
      jump here parts = some place → t.IsPlace place)
    {here parts place : List String} (hhere : t.IsPlace here)
    (hparts : ∀ part ∈ parts, '/' ∉ part.toList) (h : t.walk jump here parts = some place) :
    t.IsPlace place := by
  induction parts generalizing here with
  | nil =>
      obtain rfl := Option.some.inj h
      exact hhere
  | cons part parts ih =>
      have hrest : ∀ p ∈ parts, '/' ∉ p.toList := fun p hp => hparts p (List.mem_cons_of_mem _ hp)
      rw [walk] at h
      split at h
      next => cases h
      next hdir =>
        split at h
        next => exact ih hhere hrest h
        next hskip =>
          split at h
          next => exact ih hhere.dropLast hrest h
          next hup =>
            split at h
            next => cases h
            next target htarget =>
              have hpieces : ∀ p ∈ Path.parts target ++ parts, '/' ∉ p.toList := by
                intro p hp
                rcases List.mem_append.1 hp with hp | hp
                · exact Path.not_mem_of_mem_parts hp
                · exact hrest p hp
              refine hjump _ _ _ ?_ hpieces h
              split
              · exact isPlace_nil
              · exact hhere
            next entry hlink hentry =>
              have hname : IsName part := ⟨fun he => hskip (Or.inl he), fun he => hskip (Or.inr he),
                hup, hparts part (List.mem_cons_self ..)⟩
              have hdir' : t.isDirectory here = true := by simpa using hdir
              exact ih (hhere.append_singleton hdir' hname hentry hlink) hrest h

theorem isPlace_of_follow {links : Nat} {here parts place : List String} (hhere : t.IsPlace here)
    (hparts : ∀ part ∈ parts, '/' ∉ part.toList) (h : t.follow links here parts = some place) :
    t.IsPlace place := by
  induction links generalizing here parts place with
  | zero => exact isPlace_of_walk (fun _ _ _ _ _ hnone => by cases hnone) hhere hparts h
  | succ links ih => exact isPlace_of_walk (fun _ _ _ => ih) hhere hparts h

theorem isPlace_of_resolve? {cwd path : String} {place : List String}
    (h : t.resolve? cwd path = some place) : t.IsPlace place := by
  unfold resolve? at h
  split at h
  next => cases h
  next => exact isPlace_of_follow isPlace_nil (fun _ => Path.not_mem_of_mem_parts) h

/-! ## The way to a place -/

theorem walk_of_isPlace {jump : List String → List String → Option (List String)}
    {here rest : List String} (h : t.IsPlace (here ++ rest)) :
    t.walk jump here rest = some (here ++ rest) := by
  induction rest generalizing here with
  | nil => rw [walk, List.append_nil]
  | cons name rest ih =>
      have hdir : t.isDirectory here = true := h.above here name rest rfl
      have hname : IsName name := h.names name (by simp)
      have hnext : t.IsPlace (here ++ [name] ++ rest) := by simpa using h
      obtain ⟨entry, hentry, hlink⟩ : ∃ entry, t.get? (here ++ [name]) = some entry ∧
          ∀ target, entry ≠ .link target := by
        cases rest with
        | nil =>
            obtain ⟨entry, hentry⟩ := h.exists_entry
            refine ⟨entry, hentry, ?_⟩
            rintro target rfl
            exact h.not_link target hentry
        | cons next rest =>
            exact ⟨.directory, get?_of_isDirectory (hnext.above _ next rest rfl), nofun⟩
      rw [walk, if_neg (by simp [hdir]), if_neg (by simp [hname.ne_empty, hname.ne_dot]),
        if_neg hname.ne_dots, hentry]
      cases entry with
      | link target => exact absurd rfl (hlink target)
      | file text => simpa using ih hnext
      | directory => simpa using ih hnext

theorem walk_blank {jump : List String → List String → Option (List String)}
    {parts : List String} : t.walk jump [] ("" :: parts) = t.walk jump [] parts := by
  have hroot : t.isDirectory [] = true := rfl
  rw [walk, if_neg (by simp [hroot]), if_pos (Or.inl rfl)]

/-- The path through the names of a place leads there, from wherever it starts, unless it is too
long. -/
theorem resolve?_ofNames {place : List String} (h : t.IsPlace place) (cwd : String) :
    t.resolve? cwd (Path.ofNames place) =
      if lengthLimit ≤ (Path.ofNames place).utf8ByteSize then none else some place := by
  have hne : (Path.ofNames place).isEmpty = false := by
    rw [String.isEmpty_eq_false_iff]
    intro hempty
    have hchars := Path.toList_ofNames place
    rw [hempty] at hchars
    cases hchars
  have hfollow : t.follow linkLimit [] (Path.parts (Path.ofNames place)) = some place := by
    rw [linkLimit, follow]
    cases place with
    | nil => rw [Path.parts_ofNames_nil, walk_blank, walk_blank]; rfl
    | cons name names =>
        rw [Path.parts_ofNames (by simp) fun n hn => (h.names n hn).no_slash, walk_blank]
        show _ = some ([] ++ name :: names)
        exact walk_of_isPlace h
  rw [resolve?, hne, Bool.false_or, Path.join_ofNames, hfollow]
  simp only [decide_eq_true_eq]

theorem ofNames_inj {a b : List String} (ha : t.IsPlace a) (hb : t.IsPlace b)
    (h : Path.ofNames a = Path.ofNames b) : a = b :=
  Path.ofNames_inj (fun n hn => ⟨(ha.names n hn).ne_empty, (ha.names n hn).no_slash⟩)
    (fun n hn => ⟨(hb.names n hn).ne_empty, (hb.names n hn).no_slash⟩) h

end FileTree

end Devcontainer
