import Miniverse.Files.Secrecy
import Miniverse.Files.Listings
import Miniverse.Files.FreeNames
import Miniverse.Versions.Theorems
import Miniverse.Users.Theorems
import Miniverse.Proxy.Theorems
import Miniverse.Miniverses.Theorems
import Miniverse.Api.Theorems
import Miniverse.Calls.Theorems
import Miniverse.Mods.Theorems
import Miniverse.Sessions.Theorems
import Miniverse.Connexion.Theorems
import Miniverse.Requests.Theorems
import Miniverse.Requests.Alone
import Miniverse.Roles.Theorems
import Miniverse.Updates.Theorems
import Miniverse.Cache.Theorems
import Miniverse.Status.Histories
import Miniverse.Status.Separation
import Miniverse.Miniverses.Choices
import Miniverse.Mods.Queries
import Miniverse.Isolation.Theorems
import Miniverse.Access.Theorems
import Miniverse.Files.Archives
import Miniverse.Lifecycle.Theorems
import Miniverse.Streams.Theorems
import Miniverse.Startup.Theorems
import Miniverse.Policy.Theorems
