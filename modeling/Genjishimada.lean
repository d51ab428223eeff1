import Genjishimada.Bot.DeadLetters
import Genjishimada.Bot.Startup
import Genjishimada.Bot.VerdictXp
import Genjishimada.Bot.Acknowledgement
import Genjishimada.Bot.ClaimKeys
import Genjishimada.Tournaments.Streaks
import Genjishimada.Services.Store
import Genjishimada.Tournaments.Delivery
import Genjishimada.Tournaments.Publication
import Genjishimada.Tournaments.Staging
import Genjishimada.Tournaments.Verdicts
import Genjishimada.Tournaments.Winners
import Genjishimada.Tournaments.Boundary
import Genjishimada.Skill.Coalescing
import Genjishimada.Skill.Feed
import Genjishimada.Skill.Suspicion
import Genjishimada.Completions.Records
import Genjishimada.Lootbox.Xp
import Genjishimada.Lootbox.Keys
import Genjishimada.Store.Claims
import Genjishimada.Store.Purchases
import Genjishimada.Store.Coins
import Genjishimada.Store.Progress
import Genjishimada.Completions.Relax
import Genjishimada.Completions.Links
import Genjishimada.Completions.Moderation
import Genjishimada.Completions.Quests
import Genjishimada.Community.SkillRanks
import Genjishimada.Community.WorldRecords
import Genjishimada.Maps.Paging
import Genjishimada.Lootbox.Previews
import Genjishimada.Tournaments.Champion
import Genjishimada.Maps.Playtests
import Genjishimada.Maps.Legacy
import Genjishimada.Maps.EditRequests
import Genjishimada.Maps.EditProtocol
import Genjishimada.Users.Merge
import Genjishimada.Auth.RateLimit
import Genjishimada.Auth.Tokens
import Genjishimada.Completions.SpeedRules
import Genjishimada.Completions.Previews
import Genjishimada.Skill.Improvement
import Genjishimada.Skill.Aggregate
import Genjishimada.Skill.Conservation
import Genjishimada.Tournaments.Rerolls
import Genjishimada.Tournaments.LeastRecent
import Genjishimada.Tournaments.Grid
import Genjishimada.Library.Script
import Genjishimada.Tournaments.ParticipationGrant
import Genjishimada.Services.QuestClaims
import Genjishimada.Store.Payouts
import Genjishimada.Store.Rotation
import Genjishimada.Store.Bounties
import Genjishimada.Completions.PartialModeration
import Genjishimada.Maps.LinkedCodes
import Genjishimada.Maps.DifficultyFilters
import Genjishimada.Skill.Weights
import Genjishimada.Skill.Tiers
import Genjishimada.Lootbox.Tiers
import Genjishimada.Completions.Upvotes
import Genjishimada.Completions.Ratings
import Genjishimada.Store.ClaimFaults
import Genjishimada.Maps.Approval
import Genjishimada.Maps.PlaytestReads
import Genjishimada.Maps.Histogram
import Genjishimada.Maps.Creation
import Genjishimada.Maps.Cloning
import Genjishimada.Content.Lists
import Genjishimada.Auth.Sessions
import Genjishimada.Users.OverwatchUsernames
import Genjishimada.Maps.Medals
import Genjishimada.Maps.EditResolution
import Genjishimada.Maps.Mastery
import Genjishimada.Maps.PrimaryCreators
import Genjishimada.Maps.EditReports
import Genjishimada.Library.Float64
import Genjishimada.Services.QuestAdmin
import Genjishimada.Store.QuestAdmin
import Genjishimada.Community.RankProgress
import Genjishimada.Library.Expiry
import Genjishimada.Services.SessionStore
import Genjishimada.Auth.SessionStore
import Genjishimada.Repository.Notifications
import Genjishimada.Services.Notifications
import Genjishimada.Users.Notifications
import Genjishimada.Tournaments.Settlement
import Genjishimada.Bot.AtMostOnce
import Genjishimada.Library.Directory
import Genjishimada.Repository.Tags
import Genjishimada.Services.Tags
import Genjishimada.Content.Tags
import Genjishimada.Library.Timetable
import Genjishimada.Migrations.ItemRotation
import Genjishimada.Repository.ItemRotation
import Genjishimada.Services.ItemRotation
import Genjishimada.Store.ItemRotation
import Genjishimada.Services.MapContent
import Genjishimada.Content.Banners
import Genjishimada.Services.ChangeRequests
import Genjishimada.Bot.ChangeRequests
import Genjishimada.Bot.StaleAlerts
