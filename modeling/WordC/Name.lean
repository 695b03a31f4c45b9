namespace WordC

-- What an identifier or a type word spells. A token that was not read from a text may spell nothing.
abbrev Name := Option String

-- The name as it is shown. The missing name has a word of its own.
def Name.text (name : Name) : String := name.getD "None"

end WordC
