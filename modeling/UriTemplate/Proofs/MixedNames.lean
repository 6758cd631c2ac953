import UriTemplate.Proofs.PatternMemo
import UriTemplate.Proofs.ValueTexts

/-!
# Names that are no texts

The names of a configuration can be values of any type, such as the integers of a document, but
references lead to texts alone.  So a name of another type can only be where a path of references
begins.  There it changes nothing but one error: the names on a circle can be put into words only
if all of them are texts (`resolution_cons`).

What is finished on the way is finished under texts that are not under way, and a circle shows the
path that has led to it (`resolution_keeps`).  From both follows how the text of such a name is
substituted (`substitute_singleton_ends`).
-/

namespace UriTemplate

/-- What is raised in the place of an error where a circle cannot be put into words. -/
def Fault.unworded : Fault → Fault
  | .invalid (.circularReference _) => .misuse .notText
  | f => f

/-- The faults of showing a value refuse no circle. -/
theorem Value.IsUnshown.unworded_eq {f : Fault} (h : Value.IsUnshown f) : f.unworded = f := by
  rcases h with rfl | rfl
  · rfl
  · rfl

/-- To show a value is no matter of circles. -/
theorem Value.mapError_inspect (v : Value) : v.inspect.mapError Fault.unworded = v.inspect := by
  cases hv : v.inspect with
  | ok shown => rfl
  | error f =>
    show Except.error f.unworded = .error f
    rw [(inspect_shows v f hv).unworded_eq]

namespace Config

variable {config : Config} {k : Value} {path : List Value} {done done' : Patterns}

/-! ## A name in front of the path -/

/-- A name that is no text cannot be shown on a circle. -/
theorem circle_cons (hk : ∀ n, k ≠ .text n) (path : List Value) (name : Value) :
    circle (k :: path) name = (circle path name).unworded := by
  have hnone : Value.text? k = none := by
    cases k with
    | text n => exact absurd rfl (hk n)
    | _ => rfl
  unfold circle
  rw [List.cons_append, List.mapM_cons, hnone]
  -- without the name in front the circle is either shown or already put into no words
  cases (path ++ [name]).mapM Value.text? with
  | none => rfl
  | some names => rfl

/-- No text is found on a path at a name that is no text. -/
theorem contains_cons (hk : ∀ n, k ≠ .text n) (path : List Value) (n : Text) :
    (k :: path).contains (.text n) = path.contains (.text n) := by
  have hne : (Value.text n == k) = false := by
    rw [← Bool.not_eq_true]
    exact fun h => hk n (Value.eq_text_of_beq (BEq.symm h))
  rw [List.contains_cons, hne, Bool.false_or]

/-- The three functions do with a name that is no text in front of the path what they do without
it. -/
theorem resolution_cons (config : Config) (hk : ∀ n, k ≠ .text n) :
    (∀ path done name, config.referenced (k :: path) done name =
      (config.referenced path done name).mapError Fault.unworded) ∧
    (∀ path done name value, config.resolve (k :: path) done name value =
      (config.resolve path done name value).mapError Fault.unworded) ∧
    (∀ path done segments, config.substitute (k :: path) done segments =
      (config.substitute path done segments).mapError Fault.unworded) := by
  -- there is one case for each way through the functions, and only the circle is another error
  refine referenced.mutual_induct config _ _ _
    ?finished ?circle ?unknown ?configured ?text ?notText ?nil ?plain ?reference
  case finished =>
    intro path done name pattern hdone
    rw [referenced_of_finished hdone, referenced_of_finished hdone]
    rfl
  case circle =>
    intro path done name hdone hpath
    have hpath' : (k :: path).contains (.text name) = true := by rw [contains_cons hk, hpath]
    rw [referenced_of_contains hdone hpath, referenced_of_contains hdone hpath', circle_cons hk]
    rfl
  case unknown =>
    intro path done name hdone hpath hget
    have hpath' : ¬ (k :: path).contains (.text name) = true := by rwa [contains_cons hk]
    rw [referenced_of_unknown hdone hpath hget, referenced_of_unknown hdone hpath' hget]
    rfl
  case configured =>
    intro path done name hdone hpath v hget ih
    have hpath' : ¬ (k :: path).contains (.text name) = true := by rwa [contains_cons hk]
    rw [referenced_of_configured hdone hpath hget, referenced_of_configured hdone hpath' hget, ih]
  case text =>
    intro path done name t ih
    rw [resolve, resolve, mapError_bind, List.cons_append, ih]
    rfl
  case notText =>
    intro path done name value hvalue
    rw [resolve_of_not_text hvalue, resolve_of_not_text hvalue]
    -- no circle is refused here, and the values are shown as they are
    simp only [mapError_bind, Value.mapError_inspect]
    rfl
  case nil =>
    intro path done
    rw [substitute, substitute]
    rfl
  case plain =>
    intro path done c rest ih
    rw [substitute, substitute, mapError_bind, ih]
    rfl
  case reference =>
    intro path done name rest hname hrest
    rw [substitute, substitute, mapError_bind, hname]
    congr 1
    funext p
    -- what the reference has finished is the same with and without the name in front
    obtain ⟨inner, done'⟩ := p
    show config.substitute (k :: path) done' rest >>= _ = _
    rw [mapError_bind, hrest]
    rfl

/-! ## What a path leaves behind -/

/-- Under names that are no texts everything is as it was. -/
def KeepsOthers (done done' : Patterns) : Prop :=
  ∀ k, (∀ n, k ≠ .text n) → done'.get? k = done.get? k

/-- Where nothing is finished, nothing changes. -/
theorem KeepsOthers.refl (done : Patterns) : KeepsOthers done done := fun _ _ => rfl

/-- What two parts of the resolution keep is kept by both in a row. -/
theorem KeepsOthers.trans {done'' : Patterns} (h : KeepsOthers done done')
    (h' : KeepsOthers done' done'') : KeepsOthers done done'' :=
  fun k hk => (h' k hk).trans (h k hk)

/-- More is finished under texts alone, and under none of those on the path. -/
def Keeps (path : List Value) (done done' : Patterns) : Prop :=
  ∀ k, (∀ n, k ≠ .text n) ∨ path.contains k = true → done'.get? k = done.get? k

/-- Where nothing is finished, nothing changes. -/
theorem Keeps.refl (path : List Value) (done : Patterns) : Keeps path done done :=
  fun _ _ => rfl

/-- What two parts of the resolution keep is kept by both in a row. -/
theorem Keeps.trans {done'' : Patterns} (h : Keeps path done done')
    (h' : Keeps path done' done'') : Keeps path done done'' :=
  fun k hk => (h' k hk).trans (h k hk)

/-- Under names that are no texts nothing is finished on any path. -/
theorem Keeps.others (h : Keeps path done done') : KeepsOthers done done' :=
  fun k hk => h k (.inl hk)

/-- What is kept on a longer path is kept on every path that begins it. -/
theorem Keeps.of_append {more : List Value} (h : Keeps (path ++ more) done done') :
    Keeps path done done' := by
  refine fun k hk => h k (hk.imp_right fun hpath => ?_)
  rw [List.contains_eq_any_beq] at hpath ⊢
  rw [List.any_append, hpath, Bool.true_or]

/-- A pattern that is put under a text is seen under this text alone. -/
theorem keeps_put {n : Text} (hn : ¬ path.contains (.text n) = true) (done : Patterns) (p : Text) :
    Keeps path done (done.put (.text n) p) := by
  intro k hk
  rw [Entries.get?_put, if_neg]
  intro heq
  rcases hk with hk | hk
  · exact hk n (Value.eq_text_of_beq (BEq.symm heq))
  · rw [contains_congr heq] at hn
    exact hn hk

/-- A circle that is refused is shown with the path in front. -/
def ShowsPath (path : List Value) (f : Fault) : Prop :=
  ∀ names, f = .invalid (.circularReference names) → path <+: names.map .text

/-- A circle that is shown with a longer path is shown with every path that begins it. -/
theorem ShowsPath.of_append {more : List Value} {f : Fault} (h : ShowsPath (path ++ more) f) :
    ShowsPath path f :=
  fun names hf => (List.prefix_append path more).trans (h names hf)

/-- An error that refuses no circle shows no path. -/
theorem showsPath_config (e : ConfigError) : ShowsPath path (.config e) :=
  fun _ hf => nomatch hf

/-- A value that is not of the right kind shows no path either. -/
theorem showsPath_misuse (m : Misuse) : ShowsPath path (.misuse m) :=
  fun _ hf => nomatch hf

/-- The circle is shown by the path and the name that closes it, if all names on it are texts. -/
theorem showsPath_circle (path : List Value) (n : Text) :
    ShowsPath path (circle path (.text n)) := by
  intro names hf
  unfold circle at hf
  split at hf
  · next names' hmap =>
    cases hf
    rw [← mapM_text?_eq_some_iff.mp hmap]
    exact List.prefix_append _ _
  · cases hf

/-- The three functions finish patterns under texts that are not under way, and show the path on a
circle. -/
theorem resolution_keeps (config : Config) :
    (∀ path done name, Ends (fun r => Keeps path done r.2) (ShowsPath path)
      (config.referenced path done name)) ∧
    (∀ path done name value, ∀ n, name = .text n → ¬ path.contains (.text n) = true →
      Ends (fun r => Keeps path done r.2) (ShowsPath (path ++ [name]))
        (config.resolve path done name value)) ∧
    (∀ path done segments, Ends (fun r => Keeps path done r.2) (ShowsPath path)
      (config.substitute path done segments)) := by
  refine referenced.mutual_induct config _ _ _
    ?finished ?circle ?unknown ?configured ?text ?notText ?nil ?plain ?reference
  case finished =>
    intro path done name pattern hdone
    rw [referenced_of_finished hdone]
    exact .refl path done
  case circle =>
    intro path done name hdone hpath
    rw [referenced_of_contains hdone hpath]
    exact showsPath_circle path name
  case unknown =>
    intro path done name hdone hpath hget
    rw [referenced_of_unknown hdone hpath hget]
    exact showsPath_config _
  case configured =>
    intro path done name hdone hpath v hget ih
    rw [referenced_of_configured hdone hpath hget]
    exact (ih name rfl hpath).imp (fun _ h => h) fun _ h => h.of_append
  case text =>
    rintro path done _ t ih n rfl hpath
    rw [resolve]
    refine (ih.imp (fun _ h => h.of_append) fun _ h => h).bind ?_
    -- the name itself is finished last, and it is not on the path in front of it
    rintro ⟨p, done'⟩ hdone'
    exact hdone'.trans (keeps_put hpath done' p)
  case notText =>
    rintro path done _ value hvalue n rfl hpath
    rw [resolve_text_of_not_text hvalue]
    -- the value is shown in the refusal, unless showing it fails
    cases hshown : value.inspect with
    | ok shown => exact showsPath_config _
    | error f =>
      rcases Value.inspect_shows value f hshown with rfl | rfl
      · exact showsPath_misuse _
      · exact showsPath_misuse _
  case nil =>
    intro path done
    rw [substitute]
    exact .refl path done
  case plain =>
    intro path done c rest ih
    rw [substitute]
    exact ih.bind fun _ h => h
  case reference =>
    intro path done name rest hname hrest
    rw [substitute]
    refine hname.bind ?_
    rintro ⟨inner, done₁⟩ hdone₁
    refine (hrest done₁).bind ?_
    rintro ⟨p, done₂⟩ hdone₂
    exact hdone₁.trans hdone₂

/-! ## References followed from a name -/

/-- The faults that a reference to a name meets when it is followed by itself. -/
inductive Strands (config : Config) (m : Text) : Fault → Prop
  /-- A name is not configured, or what is configured for it is no text. -/
  | config (e : ConfigError) : Strands config m (.config e)
  /-- References lead from the name to a circle. -/
  | circle (names : List Text) (n : Text) (hm : Relation.ReflTransGen config.Refers m n)
      (hn : Relation.TransGen config.Refers n n) :
      Strands config m (.invalid (.circularReference names))
  /-- What is configured for a name is no text, and cannot be shown. -/
  | notShown (n : Text) (v : Value) (f : Fault) (hget : config.get? (.text n) = some v)
      (hv : ∀ t, v ≠ .text t) (hshown : v.inspect = .error f) : Strands config m f

/-- A chain of references leads from its first name to its last one. -/
theorem reflTransGen_of_isChain {names : List Text} {m n : Text}
    (hchain : (names ++ [n]).IsChain config.Refers)
    (hhead : [Value.text m] <+: (names ++ [n]).map .text) :
    Relation.ReflTransGen config.Refers m n := by
  obtain ⟨more, hmore⟩ := hhead
  obtain ⟨c, rest, hrest⟩ := List.exists_cons_of_ne_nil (l := names ++ [n]) (by simp)
  rw [hrest, List.map_cons, List.singleton_append] at hmore
  obtain rfl : m = c := Value.text.inj (List.cons.inj hmore).1
  have hlast : (m :: rest).getLast (List.cons_ne_nil m rest) = n := by
    simp only [← hrest, List.getLast_concat]
  rw [hrest] at hchain
  exact List.relationReflTransGen_of_exists_isChain_cons rest hchain hlast

/-- An error that shows the name first is one that a reference to the name meets. -/
theorem Explains.strands {m : Text} {f : Fault} (h : config.Explains f)
    (hpath : ShowsPath [.text m] f) : config.Strands m f := by
  cases h with
  | unknown _ n => exact .config _
  | circle names n hchain hmem =>
    exact .circle _ n (reflTransGen_of_isChain hchain (hpath _ rfl))
      (transGen_of_isChain hchain hmem)
  | notText n => exact .config _
  | notShown n v _ hget hv hshown => exact .notShown n v f hget hv hshown

/-- A name to which the text of another name refers is resolved as if it came first. -/
theorem referenced_nil_ends (hdone : config.IsSound done) (m : Text) :
    Ends (fun r => config.Denotes m r.1 ∧ config.Extends done r.2 ∧ KeepsOthers done r.2)
      (config.Strands m) (config.referenced [] done m) := by
  cases hfinished : done.get? (.text m) with
  | some p =>
    rw [referenced_of_finished hfinished]
    exact ⟨hdone m p hfinished, .refl hdone, .refl done⟩
  | none =>
    have hpath : ¬ ([] : List Value).contains (.text m) = true := by simp
    cases hget : config.get? (.text m) with
    | none =>
      rw [referenced_of_unknown hfinished hpath hget]
      exact .config _
    | some v =>
      rw [referenced_of_configured hfinished hpath hget]
      -- an error that explains itself and shows the name first is one that the name strands on
      have hkeeps := (resolution_keeps config).2.1 [] done (.text m) v m rfl hpath
      exact ((resolve_ends hget hdone).and hkeeps).imp (fun _ h => ⟨h.1.1, h.1.2.1, h.2.others⟩)
        fun _ h => h.1.strands h.2

/-- Pieces are replaced one after the other, and the first reference that cannot be followed
decides. -/
theorem substitute_nil_ends (hdone : config.IsSound done) (segments : List Segment) :
    Ends (fun r => config.Fills segments r.1 ∧ config.Extends done r.2 ∧ KeepsOthers done r.2)
      (fun f => ∃ m, .reference m ∈ segments ∧ config.Strands m f)
      (config.substitute [] done segments) := by
  induction segments generalizing done with
  | nil =>
    rw [substitute]
    exact ⟨.nil, .refl hdone, .refl done⟩
  | cons s rest ih =>
    -- a reference behind the first piece is one among all of them
    have hbehind {f : Fault} (h : ∃ m, .reference m ∈ rest ∧ config.Strands m f) :
        ∃ m, .reference m ∈ s :: rest ∧ config.Strands m f :=
      h.imp fun _ hm => ⟨List.mem_cons_of_mem _ hm.1, hm.2⟩
    cases s with
    | plain c =>
      rw [substitute]
      refine ((ih hdone).imp (fun _ h => h) fun _ h => hbehind h).bind ?_
      rintro ⟨p, done₁⟩ ⟨hfills, hextends, hkeeps⟩
      exact ⟨.plain c rest p hfills, hextends, hkeeps⟩
    | reference name =>
      rw [substitute]
      refine ((referenced_nil_ends hdone name).imp (fun _ h => h) fun _ h =>
        ⟨name, List.mem_cons_self, h⟩).bind ?_
      rintro ⟨inner, done₁⟩ ⟨hinner, hextends₁, hkeeps₁⟩
      refine ((ih hextends₁.sound).imp (fun _ h => h) fun _ h => hbehind h).bind ?_
      rintro ⟨p, done₂⟩ ⟨hfills, hextends₂, hkeeps₂⟩
      exact ⟨hinner.fills_cons hfills, hextends₁.trans hextends₂, hkeeps₁.trans hkeeps₂⟩

/-- So are the pieces of a name that is no text, but for the circles that it cannot be shown on. -/
theorem substitute_singleton_ends (hk : ∀ n, k ≠ .text n) (hdone : config.IsSound done)
    (segments : List Segment) :
    Ends (fun r => config.Fills segments r.1 ∧ config.Extends done r.2 ∧ KeepsOthers done r.2)
      (fun f => ∃ m g, .reference m ∈ segments ∧ config.Strands m g ∧ f = g.unworded)
      (config.substitute [k] done segments) := by
  rw [(resolution_cons config hk).2.2 [] done segments]
  exact (substitute_nil_ends hdone segments).mapError fun g ⟨m, hm, hg⟩ => ⟨m, g, hm, hg, rfl⟩

end Config

end UriTemplate
