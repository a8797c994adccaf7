import Checkout.Config.Database
import Checkout.Proofs.Config.Url

/-!
# What the connection string says

The settings of the database are put into the connection string as they are, so what stands in them
for itself and what separates them cannot be told apart. They are read back from the string exactly
if they are plain, that is if none of them has a separator at which it would be cut or an escape that
would be read as something else (`connectionString_determines`). Settings that are not plain may be
taken for others (`taken_for_another`).
-/

namespace Checkout

namespace DatabaseConfig

open Text

variable {c d : DatabaseConfig}

/-- Where the settings lead, if no URL stands for them. -/
def target (c : DatabaseConfig) : ConnectionUrl where
  user := c.username
  password := c.password
  host := c.host
  port := c.port
  database := c.database
  query := none
  fragment := none

/-- What the settings put into the connection string. -/
def parts (c : DatabaseConfig) : UrlParts where
  user := c.username.toList
  password := c.password.toList
  host := c.host.toList
  port := natural c.port
  database := c.database.toList

/-- No setting has a separator at which it would be cut, or an escape. -/
structure IsPlain (c : DatabaseConfig) : Prop where
  separated : c.parts.IsSeparated
  unescaped : ∀ s ∈ [c.username, c.password, c.host, c.database], ¬ HasEscape s.toList

theorem toList_connectionString (h : c.url = none) : c.connectionString.toList = c.parts.text := by
  have hport : (toString c.port).toList = c.parts.port := String.toList_ofList
  unfold connectionString
  rw [h]
  simp only [String.toList_append, List.append_assoc, UrlParts.text, UrlParts.authority,
    UrlParts.location, List.cons_append, hport]
  rfl

theorem not_mem_port : ∀ sep ∈ ['@', '/', '?', '#'], sep ∉ c.parts.port := by
  simp only [List.forall_mem_cons]
  exact ⟨not_mem_natural rfl, not_mem_natural rfl, not_mem_natural rfl, not_mem_natural rfl,
    List.forall_mem_nil _⟩

/-- Settings that are plain are read from the parts as they were put there. -/
theorem IsPlain.isWritten (h : c.IsPlain) (hport : c.port < UInt16.size) :
    c.target.IsWritten c.parts := by
  have hplain := h.unescaped
  simp only [List.forall_mem_cons] at hplain
  obtain ⟨huser, hpassword, hhost, hdatabase, -⟩ := hplain
  exact ⟨decode?_toList huser, decode?_toList hpassword, decode?_toList hhost, port?_natural hport,
    decode?_toList hdatabase⟩

/-- The settings are read from no other parts of the same string. What is read from a part is never
longer than the part, so no part has room for more than its own setting. -/
theorem isPlain_of_isWritten {w : UrlParts} (htext : c.parts.text = w.text)
    (hseparated : w.IsSeparated) (hw : c.target.IsWritten w) : c.IsPlain := by
  have hlength := congrArg (fun cs => (bytes cs).length) htext
  simp only [UrlParts.length_bytes_text, parts, length_bytes_natural] at hlength
  have huser := length_le_of_decode? hw.user
  have hpassword := length_le_of_decode? hw.password
  have hhost := length_le_of_decode? hw.host
  have hport := Nat.le_trans (length_natural_le_of_port? hw.port) (length_le_bytes w.port)
  have hdatabase := length_le_of_decode? hw.database
  simp only [target] at huser hpassword hhost hport hdatabase
  obtain ⟨huser₁, huser₂⟩ := eq_of_decode? hw.user (by dsimp only [target]; omega)
  obtain ⟨hpassword₁, hpassword₂⟩ := eq_of_decode? hw.password (by dsimp only [target]; omega)
  obtain ⟨hhost₁, hhost₂⟩ := eq_of_decode? hw.host (by dsimp only [target]; omega)
  obtain ⟨hdatabase₁, hdatabase₂⟩ := eq_of_decode? hw.database (by dsimp only [target]; omega)
  obtain ⟨user, password, host, port, database⟩ := w
  cases huser₁
  cases hpassword₁
  cases hhost₁
  cases hdatabase₁
  refine ⟨⟨hseparated.user, hseparated.password, hseparated.host, hseparated.isHost, not_mem_port,
    hseparated.database⟩, ?_⟩
  simp only [List.forall_mem_cons]
  exact ⟨huser₂, hpassword₂, hhost₂, hdatabase₂, List.forall_mem_nil _⟩

/-- **When settings are read back.** Where the settings lead is read from their connection string
exactly if they are plain. -/
theorem ofString?_connectionString_iff (hurl : c.url = none) (hport : c.port < UInt16.size) :
    ConnectionUrl.ofString? c.connectionString = some c.target ↔ c.IsPlain := by
  rw [ConnectionUrl.ofString?_eq_some_iff rfl rfl, toList_connectionString hurl]
  constructor
  · rintro ⟨w, htext, hseparated, hw⟩
    exact isPlain_of_isWritten htext hseparated hw
  · intro h
    exact ⟨c.parts, rfl, h.separated, h.isWritten hport⟩

/-- **What the connection string determines.** Reading the string back gives the user, the password,
the host, the port and the database that it was made from exactly if these are plain, and so plain
settings that lead elsewhere have another string. -/
theorem connectionString_determines (hurl : c.url = none) (hport : c.port < UInt16.size) :
    (ConnectionUrl.ofString? c.connectionString = some c.target ↔ c.IsPlain) ∧
      ∀ d : DatabaseConfig, d.url = none → d.port < UInt16.size → c.IsPlain → d.IsPlain →
        c.connectionString = d.connectionString → c.target = d.target := by
  refine ⟨ofString?_connectionString_iff hurl hport, fun d hurl' hport' hc hd heq => ?_⟩
  have hread := (ofString?_connectionString_iff hurl hport).mpr hc
  rw [heq, (ofString?_connectionString_iff hurl' hport').mpr hd] at hread
  exact (Option.some.inj hread).symm

/-- Settings with a password that has a colon and an at sign, which do not separate anything there. -/
def plainSettings : DatabaseConfig :=
  ⟨"db.internal", 3307, "shop", "svc", "s:3@cret", 10, 5000, none⟩

theorem isPlain_plainSettings : plainSettings.IsPlain where
  separated := by
    refine ⟨?_, ?_, ?_, .inr ⟨by decide, by decide⟩, not_mem_port, ?_⟩ <;>
      simp [parts, plainSettings]
  unescaped := by
    have hpercent : ∀ s ∈ ["svc", "s:3@cret", "db.internal", "shop"], '%' ∉ s.toList := by decide
    exact fun s hs => not_hasEscape_of_not_mem (hpercent s hs)

theorem connectionString_determines_sample :
    plainSettings.connectionString = "mysql://svc:s:3@cret@db.internal:3307/shop" ∧
      ConnectionUrl.ofString? plainSettings.connectionString =
        some ⟨"svc", "s:3@cret", "db.internal", 3307, "shop", none, none⟩ :=
  ⟨rfl, (connectionString_determines rfl (by decide)).1.mpr isPlain_plainSettings⟩

/-! ## Settings that are taken for others -/

/-- An environment that names the user and the password, and nothing else. -/
def named (user password : String) : Environment :=
  ⟨[("DATABASE_USER", user.toUTF8), ("DATABASE_PASSWORD", password.toUTF8)]⟩

/-- **Not all settings are read back.** A user with a colon is taken for another one, whose password
begins with what is behind the colon. -/
theorem taken_for_another :
    ∃ c d, ofEnvironment (named "a:b" "c") = .ok c ∧ ofEnvironment (named "a" "b:c") = .ok d ∧
      c.url = none ∧ d.url = none ∧ c.username = "a:b" ∧ d.username = "a" ∧
      c.connectionString = d.connectionString ∧
      (ConnectionUrl.ofString? c.connectionString).map ConnectionUrl.user = some "a" :=
  ⟨⟨"localhost", 3306, "checkout_db", "a:b", "c", 10, 5000, none⟩,
    ⟨"localhost", 3306, "checkout_db", "a", "b:c", 10, 5000, none⟩, rfl, rfl, rfl, rfl, rfl, rfl,
    rfl, rfl⟩

end DatabaseConfig

end Checkout
